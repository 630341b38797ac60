import Aixinwu.Lib.Runs
import Aixinwu.Order.Confirm
import Aixinwu.Order.Refund
import Mathlib

/-!
# Refunds give back what was captured

Confirming an order captures its total; refunds move it back. Over any run of refunds of one order
the balance of its owner should rise by what is no longer captured, and no other balance should
change (`Conserves`).

A refund that is carried out does so if it is the owner who is credited, the payment is not a manual
one, and the amount is no tie of the column's last place (`Faithful`). The last two concern all the
requests. The first is up to the caller, and `OrderRefund` credits the member of staff who asks.

What is given back is not more than what confirming took, as long as that was not rounded up.

## Main definitions

* `capturedOf`, `ownerOf`, `Conserves`
* `RefundRequest`, `serve`, `RefundRequest.Kept`

## Main results

* `conserves_refund` — one call of `gateway.refund`
* `conserves_serve` — one request
* `refunds_conserved` — every run
-/

namespace Aixinwu

open Account Payments

namespace Refunds

open Runs Decimals OrderConfirm

/-- What is captured for an order. -/
def capturedOf (db : Db) (order : ℕ) : Amount :=
  ((getLastPayment db.payments order).map (·.capturedAmount)).getD 0

/-- Whose order it is. -/
def ownerOf (db : Db) (order : ℕ) : Option ℕ := (db.orders.find? order).bind (·.user)

/-- The owner's balance rises by what is no longer captured, and no other balance changes. -/
structure Conserves (order : ℕ) (db db' : Db) : Prop where
  owner : ownerOf db' order = ownerOf db order
  balance : ∀ k, balanceIn db' k - balanceIn db k
    = if ownerOf db order = some k then capturedOf db order - capturedOf db' order else 0
  captured_le : capturedOf db' order ≤ capturedOf db order
  nonneg : 0 ≤ capturedOf db order → 0 ≤ capturedOf db' order

variable {order : ℕ} {db db' db'' : Db}

theorem Conserves.refl (order : ℕ) (db : Db) : Conserves order db db := by
  refine ⟨rfl, fun k => ?_, le_rfl, fun h => h⟩
  rw [sub_self, sub_self, ite_self]

theorem Conserves.trans (h : Conserves order db db') (h' : Conserves order db' db'') :
    Conserves order db db'' := by
  refine ⟨h'.owner.trans h.owner, fun k => ?_, h'.captured_le.trans h.captured_le,
    fun hpos => h'.nonneg (h.nonneg hpos)⟩
  have hk := h.balance k
  have hk' := h'.balance k
  rw [h.owner] at hk'
  by_cases howner : ownerOf db order = some k
  · rw [if_pos howner] at hk hk' ⊢
    linarith
  · rw [if_neg howner] at hk hk' ⊢
    linarith

/-! ### The last payment of an order -/

/-- Changing rows without their keys changes the one with the largest key as the others. -/
theorem maxByPk_map {f : Payment → Payment} (hf : ∀ p, (f p).pk = p.pk) (ps : List Payment) :
    maxByPk (ps.map f) = (maxByPk ps).map f := by
  induction ps with
  | nil => rfl
  | cons p ps ih =>
    rw [List.map_cons, maxByPk, maxByPk, ih]
    rcases maxByPk ps with _ | q
    · rfl
    · simp only [Option.map_some, hf]
      split <;> rfl

theorem getLastPayment_map (t : Table Payment) {f : Payment → Payment}
    (hf : ∀ p, HasPk.pk (f p) = HasPk.pk p)
    (hkeep : ∀ p ∈ t, (f p).order = p.order ∧ (f p).isPartial = p.isPartial) :
    getLastPayment (t.map f hf) order = (getLastPayment t order).map f := by
  rw [getLastPayment, getLastPayment, Table.rows_map, List.filter_map, maxByPk_map hf]
  refine congrArg (fun ps => (maxByPk ps).map f) (List.filter_congr fun p hp => ?_)
  obtain ⟨horder, hflag⟩ := hkeep p hp
  rw [Function.comp_apply, horder, hflag]

/-- Saving the last payment. -/
theorem getLastPayment_save {t : Table Payment} {p q : Payment} (h : getLastPayment t order = some p)
    (hpk : q.pk = p.pk) (horder : q.order = p.order) (hflag : q.isPartial = p.isPartial) :
    getLastPayment (t.save q) order = some q := by
  rw [Table.save, getLastPayment_map, h, Option.map_some, pk_payment, pk_payment, hpk, if_pos rfl]
  intro s hs
  by_cases hkey : HasPk.pk s = HasPk.pk q
  · have hsame : s = p :=
      Table.eq_of_pk_eq hs (getLastPayment_mem h).1 (hkey.trans hpk)
    rw [if_pos hkey, hsame]
    exact ⟨horder, hflag⟩
  · rw [if_neg hkey]
    exact ⟨rfl, rfl⟩

theorem getLastPayment_modify (t : Table Payment) (k : ℕ) (f : Payment → Payment)
    (hf : ∀ p, HasPk.pk (f p) = HasPk.pk p)
    (hkeep : ∀ p, (f p).order = p.order ∧ (f p).isPartial = p.isPartial) :
    getLastPayment (t.modify k f hf) order
      = (getLastPayment t order).map fun p => if p.pk = k then f p else p := by
  rw [Table.modify, getLastPayment_map]
  · rfl
  · intro p _
    split
    · exact hkeep p
    · exact ⟨rfl, rfl⟩

/-! ### One refund -/

/-- A refund that is carried out goes to the owner, and is worth to the balance what it takes from
the payment. -/
def Faithful (db : Db) (order : ℕ) (customer : ℕ) (amount : ℚ) : Prop :=
  ∀ p, getLastPayment db.payments order = some p → p.canRefund → 0 < amount →
    amount ≤ p.capturedAmount →
      ¬ p.isManual ∧
        (p.gateway = balancePluginId → ∀ u ∈ db.users, u.pk = customer →
          ownerOf db order = some customer ∧ (IsTie amount → (u.balance : ℚ) + amount < 0))

theorem captureRefunded_spec (p : Payment) {a : ℚ} (h : a ≤ p.capturedAmount) :
    (captureRefunded p a).pk = p.pk ∧ (captureRefunded p a).order = p.order ∧
      (captureRefunded p a).isPartial = p.isPartial ∧
        (captureRefunded p a).capturedAmount = toColumn (p.capturedAmount - a) := by
  by_cases hzero : (p.capturedAmount : ℚ) - a ≤ 0
  · have heq : (p.capturedAmount : ℚ) - a = 0 := le_antisymm hzero (sub_nonneg.mpr h)
    have hfull : captureRefunded p a
        = { p with capturedAmount := 0, chargeStatus := .fullyRefunded, isActive := false } :=
      if_pos hzero
    rw [hfull, heq]
    exact ⟨rfl, rfl, rfl, (toColumn_intCast 0).symm⟩
  · have hpartly : captureRefunded p a
        = { p with capturedAmount := toColumn (p.capturedAmount - a),
                   chargeStatus := .partiallyRefunded } :=
      if_neg hzero
    rw [hpartly]
    exact ⟨rfl, rfl, rfl, rfl⟩

/-- **One call of `gateway.refund`** for the last payment of an order. -/
theorem conserves_refund {now : Time} {p : Payment} {amount : ℚ} {customer : ℕ}
    (hp : getLastPayment db.payments order = some p) (h : Faithful db order customer amount) :
    Conserves order db ((refund now p.pk (some amount) (some customer)).exec db).2 := by
  rcases exec_refund_cases now p.pk (some amount) (some customer) db with
    ⟨e, he⟩ | ⟨p', a, db', txn, hfind, rfl, hpos, hle, hcan, hmoves, hok⟩
  · rw [he]
    exact Conserves.refl order db
  obtain ⟨hmem, -⟩ := getLastPayment_mem hp
  obtain rfl : p' = p := by
    obtain ⟨hmem', hpk⟩ := Table.find?_eq_some.mp hfind
    exact Table.eq_of_pk_eq hmem' hmem hpk
  rw [Option.getD_some] at hpos hle hmoves hok
  obtain ⟨hmanual, hbalance⟩ := h p' hp hcan hpos hle
  rcases hmoves with ⟨hm, -⟩ | ⟨hgateway, u, hu, hcustomer, hdb'⟩
  · exact absurd hm hmanual
  obtain rfl : u.pk = customer := (Option.some.inj hcustomer).symm
  obtain ⟨howner, htie⟩ := hbalance hgateway u hu rfl
  obtain ⟨hpk, horder, hflag, hcaptured⟩ :=
    captureRefunded_spec { p' with toConfirm := false } hle
  have hpayments : db'.payments = db.payments := by
    rw [hdb']
    rfl
  have howner' : ownerOf db' order = ownerOf db order := by
    rw [hdb']
    rfl
  have hlast : capturedOf { db' with
      payments := db'.payments.save (captureRefunded { p' with toConfirm := false } amount) } order
      = toColumn (p'.capturedAmount - amount) := by
    rw [capturedOf, hpayments, getLastPayment_save hp hpk horder hflag]
    exact hcaptured
  have hbefore : capturedOf db order = p'.capturedAmount := by
    rw [capturedOf, hp]
    rfl
  have hleft : 0 ≤ (p'.capturedAmount : ℚ) - amount := sub_nonneg.mpr hle
  rw [hok]
  refine ⟨howner', fun k => ?_, ?_, fun _ => ?_⟩
  · have hmove : toColumn (u.balance + amount) - u.balance
        = p'.capturedAmount - toColumn (p'.capturedAmount - amount) :=
      (roundHalfAway_add_sub_iff u.balance hle).mpr htie
    have hwrite : balanceIn db' k
        = balanceIn db k + if k = u.pk then refundCredit u.balance amount else 0 := by
      rw [hdb', balanceIn, refundWrites_users hu, balanceOf_credit, balanceIn]
      by_cases hk : k = u.pk
      · subst hk
        rw [(fresh_of_mem hu : balanceOf db.users u.pk = some u.balance)]
        rfl
      · rcases balanceOf db.users k with _ | b <;> simp [hk]
    refine (congrArg (· - balanceIn db k) hwrite).trans ?_
    rw [add_sub_cancel_left, howner, hlast, hbefore, ← hmove]
    exact if_congr ⟨fun hk => congrArg some hk.symm, fun hk => (Option.some.inj hk).symm⟩ rfl rfl
  · rw [hlast, hbefore]
    exact roundHalfAway_le hleft (by linarith)
  · rw [hlast]
    exact roundHalfAway_nonneg hleft

/-! ### Code around a refund -/

theorem conserves_bind {α β : Type} {m : PaymentAction α} {f : α → PaymentAction β}
    (hm : Conserves order db (m.exec db).2)
    (hf : ∀ a db', Conserves order db' ((f a).exec db').2) :
    Conserves order db ((m >>= f).exec db).2 := by
  rw [Action.exec_bind]
  rcases hexec : m.exec db with ⟨e | a, db'⟩
  · rw [hexec] at hm
    exact hm
  · rw [hexec] at hm
    exact hm.trans (hf a db')

theorem conserves_atomic {α : Type} {m : PaymentAction α}
    (hm : Conserves order db (m.exec db).2) : Conserves order db ((Action.atomic m).exec db).2 := by
  rw [Action.exec_atomic]
  rcases hexec : m.exec db with ⟨e | a, db'⟩
  · exact Conserves.refl order db
  · rw [hexec] at hm
    exact hm

theorem exec_commitOnErrors {α : Type} (m : PaymentAction α) (db : Db) :
    (commitOnErrors m).exec db =
      match m.exec db with
      | (.ok a, db') => (.ok a, db')
      | (.error e, db') => (.error e, if e = .databaseError then db else db') := rfl

theorem conserves_commitOnErrors {α : Type} {m : PaymentAction α}
    (hm : Conserves order db (m.exec db).2) :
    Conserves order db ((commitOnErrors m).exec db).2 := by
  rw [exec_commitOnErrors]
  rcases hexec : m.exec db with ⟨e | a, db'⟩
  · rw [hexec] at hm
    dsimp only
    split
    · exact Conserves.refl order db
    · exact hm
  · rw [hexec] at hm
    exact hm

/-- Changing an order but not its owner moves no money. -/
theorem conserves_modifyOrder (k : ℕ) {f : Order → Order} (hf : ∀ o, HasPk.pk (f o) = HasPk.pk o)
    (huser : ∀ o, (f o).user = o.user) :
    Conserves order db { db with orders := db.orders.modify k f hf } := by
  have howner : ownerOf { db with orders := db.orders.modify k f hf } order = ownerOf db order := by
    rw [ownerOf, Table.find?_modify, ownerOf]
    by_cases hk : order = k
    · rw [if_pos hk, Option.bind_map]
      exact congrArg (Option.bind _) (funext huser)
    · rw [if_neg hk]
  refine ⟨howner, fun j => ?_, le_rfl, fun h => h⟩
  have hcaptured : capturedOf { db with orders := db.orders.modify k f hf } order
    = capturedOf db order := rfl
  rw [hcaptured, sub_self, ite_self]
  exact sub_self _

/-- The rest moves no money. -/
theorem conserves_rest (rest : Rest) (k : ℕ) : Conserves order db ((rest.run k).exec db).2 := by
  have hrun : ((rest.run k).exec db).2 = rest.writes k db := by
    rw [Rest.run, Action.exec_bind_of_ok (Action.exec_modify _ db)]
    rcases rest.raised with _ | e <;> rfl
  rw [hrun]
  exact conserves_modifyOrder k _ fun _ => rfl

/-! ### The callers -/

variable {now : Time}

/-- `_process_refund` for the last payment of an order, in the name of its owner. -/
theorem conserves_processRefund {o : Order} {payment : Option Payment}
    {orderLines : List OrderLineInfo} {fulfillmentLines : List FulfillmentLineData}
    {amount : Option ℚ} {shipping : Bool}
    (hpayment : ∀ p, payment = some p → getLastPayment db.payments order = some p)
    (h : ∀ p customer, payment = some p → o.user = some customer →
      Faithful db order customer
        (min (p.capturedAmount : ℚ)
          (requestedAmount o orderLines fulfillmentLines amount shipping))) :
    Conserves order db
      ((processRefund now o.user o payment orderLines fulfillmentLines amount shipping).exec
        db).2 := by
  rw [processRefund.eq_def]
  refine conserves_commitOnErrors ?_
  rcases payment with _ | p
  · exact Conserves.refl order db
  dsimp only
  split
  · exact Conserves.refl order db
  · rcases huser : o.user with _ | customer
    · exact Conserves.refl order db
    · refine conserves_bind ?_ fun _ db' => Conserves.refl order db'
      exact conserves_refund (hpayment p rfl) (h p customer rfl huser)

/-- A request on the order. -/
inductive RefundRequest where
  | orderRefund (now : Time) (requestor : Option Requestor) (user : Option ℕ)
    (channelAccess : Bool) (amount : ℚ) (rest : Rest)
  | refundProducts (now : Time) (requestor : Option Requestor) (channelAccess : Bool)
    (orderLines : List OrderLineInfo) (fulfillmentLines : List FulfillmentLineData)
    (amountToRefund : Option ℚ) (includeShippingCosts : Bool) (rest : Rest)
  | returnProducts (now : Time) (requestor : Option Requestor) (channelAccess : Bool)
    (orderLines : List OrderLineInfo) (fulfillmentLines : List FulfillmentLineData)
    (refund : Bool) (amountToRefund : Option ℚ) (includeShippingCosts : Bool) (rest : Rest)
  | expire (now : Time) (due : Bool) (rest : Rest)

/-- The state after a request on the order with key `order`. -/
def serve (order : ℕ) (db : Db) : RefundRequest → Db
  | .orderRefund now requestor user channelAccess amount rest =>
    (orderRefund now requestor user channelAccess order amount rest db).1
  | .refundProducts now requestor channelAccess orderLines fulfillmentLines amountToRefund
      includeShippingCosts rest =>
    (fulfillmentRefundProducts now requestor channelAccess order orderLines fulfillmentLines
      amountToRefund includeShippingCosts rest db).1
  | .returnProducts now requestor channelAccess orderLines fulfillmentLines refund amountToRefund
      includeShippingCosts rest =>
    (fulfillmentReturnProducts now requestor channelAccess order orderLines fulfillmentLines refund
      amountToRefund includeShippingCosts rest db).1
  | .expire now due rest => expireOrder now due order rest db

/-- When the refund of a request, if it comes to one, is a faithful one. -/
def RefundRequest.Kept (order : ℕ) (db : Db) : RefundRequest → Prop
  | .orderRefund _ requestor user channelAccess amount _ =>
    -- in the name of the user of the request
    hasOneOfPermissions requestor [.manageOrders] → channelAccess →
      ∀ o, db.orders.find? order = some o → ¬ o.hasGiftCardLines →
        ∀ customer, user = some customer → Faithful db order customer amount
  | .refundProducts _ requestor channelAccess orderLines fulfillmentLines amountToRefund
      includeShippingCosts _ =>
    hasOneOfPermissions requestor [.manageOrders] → channelAccess →
      ∀ o p, cleanRefund order true amountToRefund db = .ok (o, some p) →
        ∀ customer, o.user = some customer →
          Faithful db order customer
            (min (p.capturedAmount : ℚ)
              (requestedAmount o orderLines fulfillmentLines amountToRefund includeShippingCosts))
  | .returnProducts _ requestor channelAccess orderLines fulfillmentLines refund amountToRefund
      includeShippingCosts rest =>
    hasOneOfPermissions requestor [.manageOrders] → channelAccess → rest.raised = none →
      ∀ o p, cleanRefund order refund amountToRefund db = .ok (o, some p) →
        ∀ customer, o.user = some customer →
          Faithful db order customer
            (min (p.capturedAmount : ℚ)
              (requestedAmount o (orderLines.filter (!·.replace))
                (fulfillmentLines.filter (!·.replace)) amountToRefund includeShippingCosts))
  | .expire _ due rest =>
    due → rest.raised = none →
      ∀ o, db.orders.find? order = some o → o.status ∈ expirableStatuses →
        ∀ customer, o.user = some customer →
          Faithful db order customer (unfulfilledAmount o : ℚ)

/-! ### One request -/

/-- The code ends with an exception. -/
def Raises {α : Type} (m : PaymentAction α) (db : Db) : Prop :=
  ∃ e db', m.exec db = (.error e, db')

theorem Raises.bind {α β : Type} {m : PaymentAction α} (h : Raises m db)
    (f : α → PaymentAction β) : Raises (m >>= f) db := by
  obtain ⟨e, db', he⟩ := h
  exact ⟨e, db', Action.exec_bind_of_error he⟩

theorem Raises.commitOnErrors {α : Type} {m : PaymentAction α} (h : Raises m db) :
    Raises (commitOnErrors m) db := by
  obtain ⟨e, db', he⟩ := h
  exact ⟨e, _, (exec_commitOnErrors m db).trans (by rw [he])⟩

/-- A rest that raises ends the code before it as well. -/
theorem raises_rest {α : Type} {rest : Rest} {e : PaymentException} (h : rest.raised = some e)
    (m : PaymentAction α) (k : ℕ) (db : Db) : Raises (m >>= fun _ => rest.run k) db := by
  rw [Raises, Action.exec_bind]
  rcases m.exec db with ⟨e' | a, db'⟩
  · exact ⟨e', db', rfl⟩
  · refine ⟨e, rest.writes k db', ?_⟩
    dsimp only
    rw [Rest.run, Action.exec_bind_of_ok (Action.exec_modify _ db'), h]
    rfl

/-- In a transaction nothing is left of it. -/
theorem Raises.conserves {α : Type} {m : PaymentAction α} (h : Raises m db) :
    Conserves order db ((Action.atomic m).exec db).2 := by
  obtain ⟨e, db', he⟩ := h
  rw [Action.exec_atomic_of_error he]
  exact Conserves.refl order db

theorem cleanRefund_eq_ok {refund : Bool} {amountToRefund : Option ℚ} {o : Order}
    {payment : Option Payment} (h : cleanRefund order refund amountToRefund db = .ok (o, payment)) :
    db.orders.find? order = some o ∧
      ∀ p, payment = some p → getLastPayment db.payments order = some p ∧ refund = true := by
  rw [cleanRefund, orderOrError] at h
  rcases hfind : db.orders.find? order with _ | o'
  · rw [hfind] at h
    cases h
  have hpk : o'.pk = order := (Table.find?_eq_some.mp hfind).2
  simp only [hfind] at h
  split at h
  · cases h
    exact ⟨rfl, fun _ h => by cases h⟩
  rename_i hrefund
  rcases hpayment : getLastPayment db.payments o'.pk with _ | p
  · rw [hpayment] at h
    cases h
  simp only [hpayment, cleanOrderPayment] at h
  by_cases hcan : p.canRefund
  swap
  · rw [Option.filter_some, if_neg (by simpa using hcan)] at h
    cases h
  rw [Option.filter_some, if_pos hcan] at h
  dsimp only at h
  split at h
  · cases h
  · cases h
    refine ⟨rfl, fun q hq => ⟨?_, by simpa using hrefund⟩⟩
    rw [← hpk, hpayment, hq]

theorem conserves_respond {α : Type} {r : Except PaymentException α × Db}
    (h : Conserves order db r.2) : Conserves order db (respond r).1 := by
  obtain ⟨(_ | _ | _ | _) | a, db'⟩ := r <;> exact h

theorem conserves_orderRefund {requestor : Option Requestor} {user : Option ℕ}
    {channelAccess : Bool} {amount : ℚ} {rest : Rest}
    (h : (RefundRequest.orderRefund now requestor user channelAccess amount rest).Kept order db) :
    Conserves order db (orderRefund now requestor user channelAccess order amount rest db).1 := by
  rw [orderRefund]
  split
  · exact Conserves.refl order db
  rename_i hperm
  split
  · exact Conserves.refl order db
  rcases hfind : db.orders.find? order with _ | o
  · exact Conserves.refl order db
  simp only [getNodeOrError]
  split
  · exact Conserves.refl order db
  rename_i haccess
  split
  · exact Conserves.refl order db
  rename_i hgift
  obtain rfl : o.pk = order := (Table.find?_eq_some.mp hfind).2
  rcases hpayment : getLastPayment db.payments o.pk with _ | p
  · exact Conserves.refl o.pk db
  dsimp only
  split
  · exact Conserves.refl o.pk db
  rcases user with _ | customer
  · exact Conserves.refl o.pk db
  have hrefund : Conserves o.pk db ((refund now p.pk (some amount) (some customer)).exec db).2 :=
    conserves_refund hpayment
      (h (not_not.mp hperm) (not_not.mp haccess) o hfind hgift customer rfl)
  dsimp only
  rcases hexec : (refund now p.pk (some amount) (some customer)).exec db with
    ⟨(_ | _ | _ | _) | txn, db'⟩ <;> rw [hexec] at hrefund
  case ok =>
    have hrest := hrefund.trans (conserves_rest rest o.pk)
    dsimp only
    rcases hrun : (rest.run o.pk).exec db' with ⟨e | u, db''⟩ <;> rw [hrun] at hrest <;> exact hrest
  all_goals exact hrefund

theorem conserves_refundProducts {requestor : Option Requestor} {channelAccess : Bool}
    {orderLines : List OrderLineInfo} {fulfillmentLines : List FulfillmentLineData}
    {amountToRefund : Option ℚ} {includeShippingCosts : Bool} {rest : Rest}
    (h : (RefundRequest.refundProducts now requestor channelAccess orderLines fulfillmentLines
      amountToRefund includeShippingCosts rest).Kept order db) :
    Conserves order db (fulfillmentRefundProducts now requestor channelAccess order orderLines
      fulfillmentLines amountToRefund includeShippingCosts rest db).1 := by
  rw [fulfillmentRefundProducts]
  split
  · exact Conserves.refl order db
  rename_i hperm
  rcases hclean : cleanRefund order true amountToRefund db with es | ⟨o, payment⟩
  · exact Conserves.refl order db
  dsimp only
  split
  · exact Conserves.refl order db
  rename_i haccess
  obtain ⟨-, hpayment⟩ := cleanRefund_eq_ok hclean
  refine conserves_respond (conserves_commitOnErrors (conserves_bind ?_ fun _ db' =>
    conserves_rest rest o.pk))
  refine conserves_processRefund (fun p hp => (hpayment p hp).1) ?_
  rintro p customer rfl huser
  exact h (not_not.mp hperm) (not_not.mp haccess) o p hclean customer huser

theorem conserves_returnProducts {requestor : Option Requestor} {channelAccess : Bool}
    {orderLines : List OrderLineInfo} {fulfillmentLines : List FulfillmentLineData}
    {refund : Bool} {amountToRefund : Option ℚ} {includeShippingCosts : Bool} {rest : Rest}
    (h : (RefundRequest.returnProducts now requestor channelAccess orderLines fulfillmentLines
      refund amountToRefund includeShippingCosts rest).Kept order db) :
    Conserves order db (fulfillmentReturnProducts now requestor channelAccess order orderLines
      fulfillmentLines refund amountToRefund includeShippingCosts rest db).1 := by
  rw [fulfillmentReturnProducts]
  split
  · exact Conserves.refl order db
  rename_i hperm
  rcases hclean : cleanRefund order refund amountToRefund db with es | ⟨o, payment⟩
  · exact Conserves.refl order db
  dsimp only
  split
  · exact Conserves.refl order db
  rename_i haccess
  obtain ⟨-, hpayment⟩ := cleanRefund_eq_ok hclean
  refine conserves_respond ?_
  rcases hraised : rest.raised with _ | e
  swap
  · exact (raises_rest hraised _ _ _).conserves
  refine conserves_atomic (conserves_bind ?_ fun _ db' => conserves_rest rest o.pk)
  by_cases hrefund : (refund && payment.isSome) = true
  · rw [if_pos hrefund, if_pos (Bool.and_eq_true_iff.mp hrefund).1]
    refine conserves_bind ?_ fun _ db' => Conserves.refl order db'
    refine conserves_processRefund (fun p hp => (hpayment p hp).1) ?_
    rintro p customer rfl huser
    exact h (not_not.mp hperm) (not_not.mp haccess) hraised o p hclean customer huser
  · rw [if_neg hrefund]
    exact Conserves.refl order db

theorem conserves_expire {due : Bool} {rest : Rest}
    (h : (RefundRequest.expire now due rest).Kept order db) :
    Conserves order db (expireOrder now due order rest db) := by
  rw [expireOrder]
  rcases hfind : db.orders.find? order with _ | o
  · exact Conserves.refl order db
  dsimp only
  split
  swap
  · exact Conserves.refl order db
  rename_i hdue
  obtain rfl : o.pk = order := (Table.find?_eq_some.mp hfind).2
  rcases hraised : rest.raised with _ | e
  swap
  · refine Raises.conserves (Raises.bind (Raises.commitOnErrors ?_) _)
    rw [Raises, Action.exec_bind_of_ok (Action.exec_get db)]
    exact raises_rest hraised _ _ _
  refine conserves_atomic (conserves_bind (conserves_commitOnErrors ?_) fun _ db' =>
    conserves_modifyOrder o.pk _ fun _ => rfl)
  · rw [Action.exec_bind_of_ok (Action.exec_get db)]
    refine conserves_bind ?_ fun _ db' => conserves_rest rest o.pk
    rcases huser : o.user with _ | customer
    · exact Conserves.refl o.pk db
    dsimp only
    split
    swap
    · exact Conserves.refl o.pk db
    rcases hpayment : getLastPayment db.payments o.pk with _ | p
    · exact Conserves.refl o.pk db
    · refine conserves_bind ?_ fun _ db' => Conserves.refl o.pk db'
      exact conserves_refund hpayment (h hdue.1 hraised o hfind hdue.2 customer huser)

/-- **One request** whose refund is a faithful one. -/
theorem conserves_serve {r : RefundRequest} (h : r.Kept order db) :
    Conserves order db (serve order db r) := by
  cases r with
  | orderRefund now requestor user channelAccess amount rest => exact conserves_orderRefund h
  | refundProducts now requestor channelAccess orderLines fulfillmentLines amountToRefund
      includeShippingCosts rest => exact conserves_refundProducts h
  | returnProducts now requestor channelAccess orderLines fulfillmentLines refund amountToRefund
      includeShippingCosts rest => exact conserves_returnProducts h
  | expire now due rest => exact conserves_expire h

/-! ### Every run -/

/-- Confirming takes the whole total: it is not negative, and what is left is not rounded up. -/
def PaidInFull (unit : ℕ) (db : Db) (user : Option ℕ) (id : ℕ) : Prop :=
  ∀ u ∈ db.users, user = some u.pk → ∀ o, getInstance db id = .ok o →
    0 ≤ o.totalNetAmount ∧
      quantize unit (u.balance - o.totalNetAmount) ≤ u.balance - o.totalNetAmount

/-- What confirming captures, and what it takes from the user. -/
theorem capturedOf_orderConfirm {unit : ℕ} {now : Time} {payer id : ℕ}
    (h : orderConfirm unit now (some payer) id db = (db', .success))
    (hfull : PaidInFull unit db (some payer) id) :
    0 ≤ capturedOf db' id ∧ capturedOf db' id ≤ balanceIn db payer - balanceIn db' payer := by
  rcases orderConfirm_cases unit now (some payer) id db with
    ⟨-, hfail⟩ | ⟨u, o, payment, hpayer, hu, ho, hpayment, hbalance, hpaid⟩
  · rw [h] at hfail
    exact absurd rfl hfail
  obtain rfl : payer = u.pk := Option.some.inj hpayer
  obtain ⟨hfind, -, -⟩ := getInstance_eq_ok ho
  obtain rfl : o.pk = id := (Table.find?_eq_some.mp hfind).2
  obtain ⟨hpos, hround⟩ := hfull u hu rfl o ho
  obtain rfl : db' = paid unit now u o payment db := congrArg Prod.fst (h.symm.trans hpaid)
  have hcaptured : capturedOf (paid unit now u o payment db) o.pk = o.totalNetAmount := by
    have hlast : getLastPayment (paid unit now u o payment db).payments o.pk = _ :=
      getLastPayment_modify db.payments payment.pk
        (fun p => { p with chargeStatus := .fullyCharged, capturedAmount := o.totalNetAmount })
        (fun _ => rfl) fun _ => ⟨rfl, rfl⟩
    rw [capturedOf, hlast, hpayment, Option.map_some, if_pos rfl]
    rfl
  have hbefore : balanceIn db u.pk = u.balance := by
    rw [balanceIn, (fresh_of_mem hu : balanceOf db.users u.pk = some u.balance)]
    rfl
  have hafter : balanceIn (paid unit now u o payment db) u.pk
      = quantize unit (u.balance - o.totalNetAmount) := by
    rw [balanceIn, balanceOf_paid, (fresh_of_mem hu : balanceOf db.users u.pk = some u.balance),
      Option.map_some, if_pos rfl]
    rfl
  rw [hcaptured, hbefore, hafter]
  exact ⟨hpos, by linarith⟩

/-- **Every run** of refunds of an order that was confirmed, in which the refunds are faithful ones:
in every state reached the owner has got back what is no longer captured, nobody else has gained or
lost anything, no more was given back than was taken, and what is captured is not negative. -/
theorem refunds_conserved {unit : ℕ} {now : Time} {payer id : ℕ} {db₀ : Db}
    (hconfirm : orderConfirm unit now (some payer) id db₀ = (db, .success))
    (hfull : PaidInFull unit db₀ (some payer) id) {requests : List RefundRequest}
    (h : EachStep (serve id) (fun db r => r.Kept id db) db requests) :
    ∀ t, Reached (serve id) db requests t →
      (∀ k, balanceIn t k - balanceIn db k
        = if ownerOf db id = some k then capturedOf db id - capturedOf t id else 0) ∧
      capturedOf db id - capturedOf t id ≤ balanceIn db₀ payer - balanceIn db payer ∧
      0 ≤ capturedOf t id := by
  intro t hreached
  have hstep : ∀ s r, Conserves id db s → RefundRequest.Kept id s r → Conserves id db (serve id s r) :=
    fun s r hs hr => hs.trans (conserves_serve hr)
  have hconserves : Conserves id db t := h.inv_reached hstep (Conserves.refl id db) hreached
  obtain ⟨hpos, hle⟩ := capturedOf_orderConfirm hconfirm hfull
  have hnonneg := hconserves.nonneg hpos
  exact ⟨hconserves.balance, by linarith, hnonneg⟩

/-- An order of 60 of user 1, with its payment, and a member of staff. -/
def orderDb : Db :=
  let owner : User := { pk := 1, email := "a@sjtu.edu.cn", balance := 100000, lastLogin := 0 }
  let staff : User := { pk := 2, email := "b@sjtu.edu.cn", balance := 0, lastLogin := 0 }
  let order : Order :=
    { pk := 3, user := some 1, status := .unconfirmed, totalNetAmount := 60000,
      lines := [{ pk := 4, quantity := 1, unitPriceGrossAmount := 60000 }] }
  let payment : Payment :=
    { pk := 5, order := some 3, gateway := "aixinwu.payments.balance", total := 60000 }
  { users := ⟨[owner, staff], by decide⟩
    orders := Table.singleton order
    payments := Table.singleton payment }

/-- The owner pays, 20 are refunded with the products, and some are returned without a refund. -/
theorem refunds_conserved_productsReturn :
    let db := (orderConfirm 10 5 (some 1) 3 orderDb).1
    let staff : Option Requestor := some ⟨[.manageOrders]⟩
    let requests : List RefundRequest :=
      [.refundProducts 6 staff true [] [] (some 20000) false {},
        .returnProducts 7 staff true [] [] false none false {}]
    ∀ t, Reached (serve 3) db requests t →
      (∀ k, balanceIn t k - balanceIn db k
        = if ownerOf db 3 = some k then capturedOf db 3 - capturedOf t 3 else 0) ∧
      capturedOf db 3 - capturedOf t 3 ≤ balanceIn orderDb 1 - balanceIn db 1 ∧
      0 ≤ capturedOf t 3 := by
  intro db staff requests
  have hfull : PaidInFull 10 orderDb (some 1) 3 := by
    intro u hu hpk o ho
    obtain ⟨hfind, -, -⟩ := getInstance_eq_ok ho
    obtain rfl := Option.some.inj (hfind.symm.trans rfl)
    rcases List.mem_cons.mp (show u ∈ orderDb.users.rows from hu) with rfl | hu
    · decide
    · obtain rfl := List.mem_singleton.mp hu
      cases hpk
  have hrun : EachStep (serve 3) (fun db r => r.Kept 3 db) db requests := by
    rw [eachStep_cons, eachStep_cons]
    refine ⟨?_, ?_, eachStep_nil _⟩
    · intro _ _ o p hclean customer hcustomer q hq _ _ _
      obtain ⟨hfind, hp⟩ := cleanRefund_eq_ok hclean
      obtain rfl := Option.some.inj (hfind.symm.trans rfl)
      obtain rfl := Option.some.inj ((hp p rfl).1.symm.trans rfl)
      obtain rfl := Option.some.inj (hq.symm.trans rfl)
      exact ⟨by decide, fun _ u _ _ => ⟨hcustomer, fun htie => absurd htie (by decide +kernel)⟩⟩
    · intro _ _ _ o p hclean
      cases ((cleanRefund_eq_ok hclean).2 p rfl).2
  exact refunds_conserved (rfl : _ = (db, Outcome.success)) hfull hrun

/-- Staff refunds 20 of the order, and gets them. -/
theorem refunds_conserved_staffRefund :
    ¬ ∀ (unit : ℕ) (now : Time) (payer id : ℕ) (db₀ db : Db) (requests : List RefundRequest),
      0 < unit → orderConfirm unit now (some payer) id db₀ = (db, .success) →
      ∀ t, Reached (serve id) db requests t → ∀ k, balanceIn t k - balanceIn db k
        = if ownerOf db id = some k then capturedOf db id - capturedOf t id else 0 := by
  intro h
  have hend := h 10 5 1 3 orderDb _
    [.orderRefund 6 (some ⟨[.manageOrders]⟩) (some 2) true 20000 {}] (by decide) rfl _
    (reached_run _ _) 2
  revert hend
  decide +kernel

end Refunds

end Aixinwu
