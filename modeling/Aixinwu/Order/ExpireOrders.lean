import Aixinwu.Checkout.CompleteCheckout
import Aixinwu.Lib.OrderBy

/-!
# Orders that expire

`_expire_orders` of `saleor/order/tasks.py`, beside the orders that checkouts become. An order of a
channel with an expiry time is due when it is old enough. The unpaid ones are expired in one batch,
which is to give back the use of their vouchers (`_bulk_release_voucher_usage`); all that are due
then, paid or not, are expired one after another, each in a transaction of its own.

The release goes by the column `voucher_code` of the orders. `_create_order_from_checkout` fills
`voucher` and not `voucher_code`, so an order that was made of a checkout is never found.

The columns of an order that only this component reads are kept beside the table, by primary key.
What may raise on the way is an input: what comes with the batch (allocations, plugins) and, for
each order, what comes with expiring it (refund, fulfillment).

## Main definitions

* `OrderColumns`, `Db`
* `Db.create` — `create_order_from_checkout`, with the columns of the new order
* `Db.bulkReleaseVoucherUsage`, `Db.expireOrders`

## Main results

* `bulkReleaseVoucherUsage_eq_self` — without a `voucher_code` nothing is released
* `create_cases` — everything that creating an order can do to orders and vouchers
* `live_expireOrders` — which orders a run of the task expires
-/

namespace Aixinwu

namespace Expiry

open Checkout Aixinwu.Action

/-! ### The tables -/

/-- Columns of `order.models.Order` that creating and expiring orders read and write. -/
structure OrderColumns where
  number : ℕ := 0
  channel : ℕ := 0
  createdAt : Time := 0
  userEmail : Option String := none
  voucherCode : Option String := none
deriving DecidableEq, Repr

/-- The columns of an `account.models.User` that `retrieve_user_by_email` reads. -/
structure Account where
  email : String
  isActive : Bool := true
deriving DecidableEq, Repr

/-- The tables: those of the checkouts, the columns of the orders, `expire_orders_after` of the
channels, the accounts, and the next primary key of an order. -/
structure Db extends CheckoutDb where
  columns : ℕ → OrderColumns := fun _ => {}
  expireOrdersAfter : ℕ → Option ℤ := fun _ => none
  accounts : List Account := []
  nextOrder : ℕ := 0

/-! ### Creating an order -/

/-- `retrieve_user_by_email`. -/
def retrieveUserByEmail (accounts : List Account) (email : String) : Option Account :=
  let users := accounts.filter (·.email.toLower = email.toLower)
  if 1 < users.length then
    ((users.filter (·.email = email)).head?).or (users.filter (·.email = email.toLower)).head?
  else users.head?

/-- The e-mail of a new order: of the user of the checkout, or of the account that
`assign_checkout_user` finds for an anonymous request, or of the checkout. -/
def orderEmail (accounts : List Account) (anonymous : Bool) (checkout : CheckoutRow) :
    Option String :=
  match checkout.userEmail, checkout.email with
  | some userEmail, _ => some userEmail
  | none, none => none
  | none, some email =>
    if anonymous ∧ email ≠ "" then
      match retrieveUserByEmail accounts email with
      | some user => if user.isActive then some user.email else some email
      | none => some email
    else some email

/-- A call of `create_order_from_checkout`, with what building the order comes to. -/
structure CreateRequest where
  info : CheckoutInfo
  order : Order
  failure : Option CheckoutError := none
  deleteCheckout : Bool := true
  anonymous : Bool := true
  number : ℕ := 0
  now : Time

/-- The order that is built gets the next primary key. -/
def CreateRequest.orderAt (r : CreateRequest) (pk : ℕ) : Order := { r.order with pk }

/-- The e-mail on the order of a call, of the checkout as it is read again. -/
def CreateRequest.email (r : CreateRequest) (db : Db) : Option String :=
  (db.checkouts.find? (·.token = r.info.checkout.token)).bind
    (orderEmail db.accounts r.anonymous)

/-- The columns of the order of a call. -/
def CreateRequest.columns (r : CreateRequest) (db : Db) : OrderColumns where
  number := r.number
  channel := ((db.channels.find? (·.slug = r.info.channelSlug)).map (·.pk)).getD 0
  createdAt := r.now
  userEmail := r.email db
  voucherCode := none

/-- `create_order_from_checkout`. A primary key is used up even if there is no order. -/
def Db.create (db : Db) (r : CreateRequest) : Db where
  toCheckoutDb :=
    ((createOrderFromCheckout r.info (r.orderAt db.nextOrder) r.failure r.deleteCheckout
      r.now).exec db.toCheckoutDb).2
  columns := Function.update db.columns db.nextOrder (r.columns db)
  expireOrdersAfter := db.expireOrdersAfter
  accounts := db.accounts
  nextOrder := db.nextOrder + 1

/-! ### Releasing -/

/-- `voucher_orders`: the orders of the batch with the code. -/
def Db.voucherOrders (db : Db) (orderIds : List ℕ) (code : VoucherCode) : List Order :=
  db.orders.filter fun o => o.pk ∈ orderIds && (db.columns o.pk).voucherCode = some code.code

/-- The code is on an order of the batch and its voucher has a limit. -/
def Db.isReleased (db : Db) (orderIds : List ℕ) (code : VoucherCode) : Bool :=
  !(db.voucherOrders orderIds code).isEmpty &&
    db.vouchers.rows.any fun v => v.pk = code.voucher && v.usageLimit.isSome

/-- `used=F("used") - F("order_count")`. -/
def Db.release (db : Db) (orderIds : List ℕ) (code : VoucherCode) : VoucherCode :=
  code.update
    (if db.isReleased orderIds code then (· - (db.voucherOrders orderIds code).length) else id) id

theorem pk_release (db : Db) (orderIds : List ℕ) (code : VoucherCode) :
    HasPk.pk (db.release orderIds code) = HasPk.pk code := by
  rw [Db.release, VoucherCode.pk_update]

theorem code_release (db : Db) (orderIds : List ℕ) (code : VoucherCode) :
    (db.release orderIds code).code = code.code := by
  rw [Db.release, VoucherCode.code_update]

/-- `_bulk_release_voucher_usage`; the counter is a `PositiveIntegerField`. -/
def Db.bulkReleaseVoucherUsage (db : Db) (orderIds : List ℕ) : Except CheckoutError Db :=
  if db.codes.rows.any fun c =>
      db.isReleased orderIds c && c.used < (db.voucherOrders orderIds c).length then
    .error .integrityError
  else
    .ok { db with
      codes := db.codes.map (db.release orderIds) (pk_release db orderIds)
      codes_unique := by
        have hcode : (·.code) ∘ db.release orderIds = (·.code) :=
          funext (code_release db orderIds)
        rw [Table.rows_map, List.map_map, hcode]
        exact db.codes_unique
      customers := db.customers.filter fun row =>
        !((db.codes.rows.any fun c =>
            c.id = row.voucherCode && !(db.voucherOrders orderIds c).isEmpty) &&
          db.orders.any fun o =>
            o.pk ∈ orderIds && (db.columns o.pk).userEmail = some row.customerEmail) }

/-! ### Expiring -/

/-- A run of the task: what comes with the batch raises, or what comes with one of the orders. -/
structure ExpireRequest where
  now : Time
  raises : Bool := false
  failing : List ℕ := []
deriving DecidableEq, Repr

/-- `.update(status=OrderStatus.EXPIRED, …)`. -/
def Db.setExpired (db : Db) (orderIds : List ℕ) : Db :=
  { db with
    orders := db.orders.map fun o => if o.pk ∈ orderIds then { o with status := .expired } else o }

/-- `time_diff_func_in_minutes`, of two instants: the days, hours and minutes between them. -/
abbrev TimeDiffInMinutes := Time → Time → ℤ

variable (minutes : TimeDiffInMinutes)

/-- The channel of the order has an expiry time, and the order is as old as that. -/
def Db.isDue (db : Db) (now : Time) (o : Order) : Bool :=
  match db.expireOrdersAfter (db.columns o.pk).channel with
  | some n => 0 < n && n ≤ minutes (db.columns o.pk).createdAt now
  | none => false

/-- `EXPIRE_ORDER_BATCH_SIZE`. -/
def EXPIRE_ORDER_BATCH_SIZE : ℕ := 100

/-- `ids_batch`: the unpaid orders that are due, the newest numbers first. -/
def Db.idsBatch (db : Db) (now : Time) : List ℕ :=
  let qs := db.orders.filter fun o =>
    db.isDue minutes now o && o.chargeStatus ∈ [OrderChargeStatus.ofPayment .notCharged, .none] &&
      o.status = .unconfirmed
  ((orderBy (fun o => -((db.columns o.pk).number : ℤ)) qs).take EXPIRE_ORDER_BATCH_SIZE).map (·.pk)

/-- The orders of the second phase that are expired. -/
def Db.paidIds (db : Db) (r : ExpireRequest) : List ℕ :=
  (db.orders.filter fun o =>
    db.isDue minutes r.now o &&
      o.status ∈ [OrderStatus.unconfirmed, .unfulfilled, .partiallyFulfilled] &&
      o.pk ∉ r.failing).map (·.pk)

/-- `_expire_orders`. -/
def Db.expireOrders (db : Db) (r : ExpireRequest) : Db :=
  let idsBatch := db.idsBatch minutes r.now
  match db.bulkReleaseVoucherUsage idsBatch with
  | .error _ => db
  | .ok released =>
    if r.raises then db
    else
      let db := released.setExpired idsBatch
      db.setExpired (db.paidIds minutes r)

/-! ### Without a voucher code on the orders -/

section Release

variable {db : Db}

/-- No order has a `voucher_code`. -/
def Unlinked (db : Db) : Prop := ∀ o ∈ db.orders, (db.columns o.pk).voucherCode = none

theorem voucherOrders_eq_nil (h : Unlinked db) (orderIds : List ℕ) (code : VoucherCode) :
    db.voucherOrders orderIds code = [] := by
  rw [Db.voucherOrders, List.filter_eq_nil_iff]
  intro o ho
  simp [h o ho]

theorem release_eq_self (h : Unlinked db) (orderIds : List ℕ) :
    db.release orderIds = id := by
  funext code
  have hreleased : db.isReleased orderIds code = false := by
    simp [Db.isReleased, voucherOrders_eq_nil h]
  rw [Db.release, hreleased]
  rfl

/-- **Nothing is released** when no order has a voucher code. -/
theorem bulkReleaseVoucherUsage_eq_self (h : Unlinked db) (orderIds : List ℕ) :
    db.bulkReleaseVoucherUsage orderIds = .ok db := by
  have hnone : (db.codes.rows.any fun c =>
      db.isReleased orderIds c && c.used < (db.voucherOrders orderIds c).length) = false := by
    simp [voucherOrders_eq_nil h]
  have hcodes : db.codes.map (db.release orderIds) (pk_release db orderIds) = db.codes := by
    ext1
    rw [Table.rows_map, release_eq_self h, List.map_id]
  have hcustomers : (db.customers.filter fun row =>
      !((db.codes.rows.any fun c =>
          c.id = row.voucherCode && !(db.voucherOrders orderIds c).isEmpty) &&
        db.orders.any fun o =>
          o.pk ∈ orderIds && (db.columns o.pk).userEmail = some row.customerEmail))
      = db.customers := by
    simp [voucherOrders_eq_nil h]
  rw [Db.bulkReleaseVoucherUsage, if_neg (by simp [hnone])]
  simp only [hcodes, hcustomers]

end Release

/-! ### What expires -/

/-- The order is there and has not expired. -/
def Db.live (db : Db) (order : ℕ) : Bool :=
  db.orders.any fun o => o.pk = order && o.status ≠ .expired

/-- A run of the task expires the order: it is due, in a status that expires, and in the batch or
not one that fails. -/
def Db.Expires (db : Db) (r : ExpireRequest) (o : Order) : Prop :=
  ¬ r.raises ∧ db.isDue minutes r.now o ∧
    o.status ∈ [OrderStatus.unconfirmed, .unfulfilled, .partiallyFulfilled] ∧
    (o.pk ∈ db.idsBatch minutes r.now ∨ o.pk ∉ r.failing)

instance (db : Db) (r : ExpireRequest) (o : Order) : Decidable (db.Expires minutes r o) :=
  inferInstanceAs (Decidable (_ ∧ _))

section Expires

variable {minutes} {db : Db} {r : ExpireRequest}

theorem live_setExpired {ids : List ℕ} {order : ℕ} (h : order ∉ ids) :
    (db.setExpired ids).live order = db.live order := by
  rw [Db.live, Db.live, Db.setExpired, List.any_map]
  congr 1
  funext o
  by_cases ho : o.pk = order
  · have hnot : o.pk ∉ ids := ho ▸ h
    simp [hnot]
  · have hpk : (if o.pk ∈ ids then { o with status := OrderStatus.expired } else o).pk = o.pk := by
      split <;> rfl
    simp [hpk, ho]

/-- The batch is made of orders that expire. -/
theorem exists_of_mem_idsBatch (hraises : ¬ r.raises) {order : ℕ}
    (h : order ∈ db.idsBatch minutes r.now) :
    ∃ o ∈ db.orders, o.pk = order ∧ db.Expires minutes r o := by
  have hbatch := h
  simp only [Db.idsBatch] at h
  obtain ⟨o, ho, rfl⟩ := List.mem_map.mp h
  have ho := (mem_orderBy _).mp (List.mem_of_mem_take ho)
  obtain ⟨hmem, hp⟩ := List.mem_filter.mp ho
  simp only [Bool.and_eq_true, decide_eq_true_eq] at hp
  obtain ⟨⟨hdue, -⟩, hstatus⟩ := hp
  refine ⟨o, hmem, rfl, hraises, hdue, ?_, Or.inl hbatch⟩
  rw [hstatus]
  exact List.mem_cons_self

/-- What the second phase takes was an order that expires. -/
theorem exists_of_mem_paidIds (hraises : ¬ r.raises) {ids : List ℕ} {order : ℕ}
    (h : order ∈ (db.setExpired ids).paidIds minutes r) :
    ∃ o ∈ db.orders, o.pk = order ∧ db.Expires minutes r o := by
  obtain ⟨o', ho', rfl⟩ := List.mem_map.mp h
  obtain ⟨hmem, hp⟩ := List.mem_filter.mp ho'
  simp only [Bool.and_eq_true, decide_eq_true_eq] at hp
  obtain ⟨⟨hdue, hstatus⟩, hfailing⟩ := hp
  obtain ⟨o, ho, rfl⟩ := List.mem_map.mp hmem
  by_cases hids : o.pk ∈ ids
  · rw [if_pos hids] at hstatus
    simp at hstatus
  · rw [if_neg hids] at hdue hstatus hfailing ⊢
    exact ⟨o, ho, rfl, hraises, hdue, hstatus, Or.inr hfailing⟩

theorem expireOrders_of_unlinked (h : Unlinked db) :
    db.expireOrders minutes r
      = if r.raises then db
        else (db.setExpired (db.idsBatch minutes r.now)).setExpired
          ((db.setExpired (db.idsBatch minutes r.now)).paidIds minutes r) := by
  simp only [Db.expireOrders, bulkReleaseVoucherUsage_eq_self h]

/-- **An order that does not expire** is as alive as before. -/
theorem live_expireOrders (h : Unlinked db) {order : ℕ}
    (hnot : ∀ o ∈ db.orders, o.pk = order → ¬ db.Expires minutes r o) :
    (db.expireOrders minutes r).live order = db.live order := by
  rw [expireOrders_of_unlinked h]
  split
  · rfl
  · next hraises =>
    have hbatch : order ∉ db.idsBatch minutes r.now := by
      intro hmem
      obtain ⟨o, ho, hpk, hexpires⟩ := exists_of_mem_idsBatch hraises hmem
      exact hnot o ho hpk hexpires
    have hpaid : order ∉ (db.setExpired (db.idsBatch minutes r.now)).paidIds minutes r := by
      intro hmem
      obtain ⟨o, ho, hpk, hexpires⟩ := exists_of_mem_paidIds hraises hmem
      exact hnot o ho hpk hexpires
    rw [live_setExpired hpaid, live_setExpired hbatch]

/-- Nothing but the orders is touched, and of these only the status. -/
theorem usage_expireOrders (h : Unlinked db) :
    (db.expireOrders minutes r).usage = db.usage ∧
      (db.expireOrders minutes r).vouchers = db.vouchers ∧
      (db.expireOrders minutes r).columns = db.columns ∧
      (db.expireOrders minutes r).nextOrder = db.nextOrder ∧
      (db.expireOrders minutes r).orders.map (·.pk) = db.orders.map (·.pk) := by
  rw [expireOrders_of_unlinked h]
  split
  · exact ⟨rfl, rfl, rfl, rfl, rfl⟩
  · have hpks : ∀ (db : Db) (ids : List ℕ),
        (db.setExpired ids).orders.map (·.pk) = db.orders.map (·.pk) := by
      intro db ids
      rw [Db.setExpired, List.map_map]
      refine List.map_congr_left fun o _ => ?_
      simp only [Function.comp]
      split <;> rfl
    exact ⟨rfl, rfl, rfl, rfl, by rw [hpks, hpks]⟩

end Expires

/-! ### What creating an order can do -/

section Create

variable {db : Db} {r : CreateRequest}

/-- The checkout has a voucher and its code is found valid. -/
def CreateRequest.Finds (r : CreateRequest) (db : Db) (v : Voucher) (c : VoucherCode) : Prop :=
  r.info.voucher.isSome ∧
    getVoucherForCheckout db.toCheckoutDb r.info.checkout r.info.channelSlug r.now
      = .ok (some (v, c))

/-- A new order at the end of the table. -/
def CreateRequest.Appends (r : CreateRequest) (db after : Db) : Prop :=
  ∃ checkout, after.orders = db.orders ++ [newOrder checkout (r.orderAt db.nextOrder)]

/-- The second block of the call, on tables with the same checkouts and orders. -/
theorem orderBlock_cases (db : Db) (r : CreateRequest) (before : CheckoutDb)
    (hcheckouts : before.checkouts = db.checkouts) (horders : before.orders = db.orders) (hvouchers : before.vouchers = db.vouchers)
    (code : Option VoucherCode) {after : CheckoutDb}
    (hafter : after = ((atomic (orderBlock r.info code (r.orderAt db.nextOrder) r.failure
      r.deleteCheckout)).exec before).2) :
    after.vouchers = db.vouchers ∧ after.usage = before.usage ∧
      ((GoesThrough db.toCheckoutDb r.info r.failure ∧
          ∃ checkout, after.orders = db.orders ++ [newOrder checkout (r.orderAt db.nextOrder)]) ∨
        (¬ GoesThrough db.toCheckoutDb r.info r.failure ∧ after.orders = db.orders)) := by
  have hiff : GoesThrough before r.info r.failure
      ↔ GoesThrough db.toCheckoutDb r.info r.failure := by
    rw [GoesThrough, GoesThrough, hcheckouts]
  by_cases hthrough : GoesThrough db.toCheckoutDb r.info r.failure
  · obtain ⟨a, db', hexec, husage, ⟨checkout, -, hsnoc⟩, hv⟩ :=
      exec_orderBlock_of_goesThrough (hiff.mpr hthrough)
    rw [hafter, hexec]
    exact ⟨hv.trans hvouchers, husage, Or.inl ⟨hthrough, checkout, by rw [hsnoc, horders]⟩⟩
  · rw [hafter, exec_orderBlock_of_not_goesThrough fun h => hthrough (hiff.mp h)]
    exact ⟨hvouchers, rfl, Or.inr ⟨hthrough, horders⟩⟩

/-- **Everything a call can do** to the orders and the vouchers: the voucher refuses and nothing
happens; or a use is recorded if the code is found, and an order is made if nothing prevents
it. -/
theorem create_cases (db : Db) (r : CreateRequest) :
    (db.create r).vouchers = db.vouchers ∧
    ((∃ v c, r.Finds db v c ∧ Refuses db.toCheckoutDb v c r.info.getCustomerEmail ∧
        (db.create r).usage = db.usage ∧ (db.create r).orders = db.orders) ∨
      (((¬ ∃ v c, r.Finds db v c) ∧ (db.create r).usage = db.usage ∨
        ∃ v c, r.Finds db v c ∧ ¬ Refuses db.toCheckoutDb v c r.info.getCustomerEmail ∧
          (db.create r).usage = (db.recordUsage v c r.info.getCustomerEmail).usage) ∧
        ((GoesThrough db.toCheckoutDb r.info r.failure ∧ r.Appends db (db.create r)) ∨
          (¬ GoesThrough db.toCheckoutDb r.info r.failure ∧
            (db.create r).orders = db.orders)))) := by
  rcases hvoucher : r.info.voucher with _ | v₀
  · have hexec : (db.create r).toCheckoutDb = ((atomic (orderBlock r.info none
        (r.orderAt db.nextOrder) r.failure r.deleteCheckout)).exec db.toCheckoutDb).2 := by
      rw [Db.create, createOrderFromCheckout, hvoucher]
      rfl
    obtain ⟨hv, husage, horders⟩ := orderBlock_cases db r _ rfl rfl rfl none hexec
    refine ⟨hv, Or.inr ⟨Or.inl ⟨?_, husage⟩, horders⟩⟩
    rintro ⟨v, c, hsome, -⟩
    rw [hvoucher] at hsome
    cases hsome
  have hsome : r.info.voucher.isSome := by rw [hvoucher]; rfl
  have hsplit : createOrderFromCheckout r.info (r.orderAt db.nextOrder) r.failure
        r.deleteCheckout r.now
      = atomic (increaseVoucherCodeUsage r.info r.now) >>= fun code =>
        atomic (orderBlock r.info code (r.orderAt db.nextOrder) r.failure r.deleteCheckout) := by
    rw [createOrderFromCheckout, hvoucher]
  obtain ⟨found, hfound, -⟩ := getVoucherForCheckout_ok db.toCheckoutDb r.info.checkout
    r.info.channelSlug r.now
  rcases found with _ | ⟨v, c⟩
  · have hexec : (db.create r).toCheckoutDb = ((atomic (orderBlock r.info none
        (r.orderAt db.nextOrder) r.failure r.deleteCheckout)).exec db.toCheckoutDb).2 := by
      rw [Db.create, hsplit, exec_bind_of_ok (exec_increaseVoucherCodeUsage_of_none hfound)]
    obtain ⟨hv, husage, horders⟩ := orderBlock_cases db r _ rfl rfl rfl none hexec
    refine ⟨hv, Or.inr ⟨Or.inl ⟨?_, husage⟩, horders⟩⟩
    rintro ⟨v, c, -, hsome⟩
    rw [hfound] at hsome
    cases hsome
  by_cases hrefuses : Refuses db.toCheckoutDb v c r.info.getCustomerEmail
  · obtain ⟨e, he⟩ := exec_increaseVoucherCodeUsage_of_refuses hfound hrefuses
    have hexec : (db.create r).toCheckoutDb = db.toCheckoutDb := by
      rw [Db.create, hsplit, exec_bind_of_error he]
    exact ⟨congrArg CheckoutDb.vouchers hexec, Or.inl ⟨v, c, ⟨hsome, hfound⟩, hrefuses,
      congrArg CheckoutDb.usage hexec, congrArg CheckoutDb.orders hexec⟩⟩
  · have hexec : (db.create r).toCheckoutDb = ((atomic (orderBlock r.info (some c)
        (r.orderAt db.nextOrder) r.failure r.deleteCheckout)).exec
          (db.recordUsage v c r.info.getCustomerEmail)).2 := by
      rw [Db.create, hsplit,
        exec_bind_of_ok (exec_increaseVoucherCodeUsage_of_not_refuses hfound hrefuses)]
    obtain ⟨hv, husage, horders⟩ := orderBlock_cases db r (db.recordUsage v c r.info.getCustomerEmail)
      rfl rfl rfl (some c) hexec
    exact ⟨hv, Or.inr ⟨Or.inr ⟨v, c, ⟨hsome, hfound⟩, hrefuses, husage⟩, horders⟩⟩

end Create

end Expiry

end Aixinwu
