import Aixinwu.Checkout.VoucherUsage

/-!
# Turning a checkout into an order

`create_order_from_checkout` of `saleor/checkout/complete_checkout.py`. The use of the voucher is
recorded in a transaction of its own, which is committed before the one that builds the order
begins. When building the order fails for want of stock or because of a gift card the use is
released, but inside the second transaction, and the exception that is raised again takes the
release back. Every other failure, and a checkout that has become an order already, has no release
at all.

`createOrderFromCheckout_voucher_iff` says exactly when the rows of the voucher follow the order.
What building the order comes to (an order, or any exception) is an input.

## Main definitions

* `createOrderFromCheckout`
* `VoucherFollowsOrder` — a use is recorded if and only if there is a new order
* `NeedsRecord`, `GoesThrough`

## Main results

* `exec_increaseVoucherCodeUsage`, `exec_orderBlock` — the two transactions
* `createOrderFromCheckout_voucher_iff`
-/

namespace Aixinwu

namespace Checkout

open Aixinwu.Action

/-- The columns of a new order that do not depend on what is in the checkout. -/
def newOrder (checkout : CheckoutRow) (order : Order) : Order :=
  { order with status := .unconfirmed, checkoutToken := checkout.token }

/-- `_create_order_from_checkout`: the row of the order is created first; what comes after
(lines, allocations, gift cards, payments) may raise `failure`. -/
def createOrder (checkout : CheckoutRow) (order : Order) (failure : Option CheckoutError) :
    CheckoutAction Order := do
  modify fun db => { db with orders := db.orders ++ [newOrder checkout order] }
  match failure with
  | none => pure (newOrder checkout order)
  | some e => throw e

/-- The second block: the checkout is locked and read again, and the order built. -/
def orderBlock (info : CheckoutInfo) (code : Option VoucherCode) (order : Order)
    (failure : Option CheckoutError) (deleteCheckout : Bool) : CheckoutAction (Option Order) := do
  let db ← get
  match db.checkouts.find? (·.token = info.checkout.token) with
  | none =>
    -- `Order.objects.get_by_checkout_token`
    pure (db.orders.find? fun o => o.status ≠ .draft && o.checkoutToken = info.checkout.token)
  | some checkout =>
    tryCatch
      (do
        let order ← createOrder checkout order failure
        if deleteCheckout then
          modify fun db => { db with checkouts := db.checkouts.filter (·.token ≠ checkout.token) }
        pure (some order))
      fun e => do
        match e with
        | .insufficientStock | .giftCardNotApplicable =>
          releaseVoucherCodeUsage code info.voucher checkout.getCustomerEmail
        | _ => pure ()
        throw e

/-- `create_order_from_checkout`. -/
def createOrderFromCheckout (info : CheckoutInfo) (order : Order) (failure : Option CheckoutError)
    (deleteCheckout : Bool) (now : Time) : CheckoutAction (Option Order) := do
  let code ← match info.voucher with
    | none => pure none
    | some _ => atomic (increaseVoucherCodeUsage info now)
  atomic (orderBlock info code order failure deleteCheckout)

/-! ### What is asked of it -/

/-- The code on a checkout that has a voucher, with the voucher it belongs to. -/
def CheckoutInfo.codeOf (info : CheckoutInfo) (db : CheckoutDb) : Option (Voucher × VoucherCode) :=
  match info.voucher, info.checkout.voucherCode with
  | some _, some s =>
    (db.codes.rows.find? (·.code = s)).bind fun c => (db.vouchers.find? c.voucher).map (·, c)
  | _, _ => none

/-- The tables with a use of the checkout's code recorded. -/
def CheckoutDb.withUsage (db : CheckoutDb) (info : CheckoutInfo) : CheckoutDb :=
  match info.codeOf db with
  | none => db
  | some (voucher, code) => db.recordUsage voucher code info.getCustomerEmail

/-- A use of the voucher is recorded when there is a new order, and nothing otherwise. -/
def VoucherFollowsOrder (info : CheckoutInfo) (before after : CheckoutDb) : Prop :=
  after.usage = if after.orders ≠ before.orders then (before.withUsage info).usage else before.usage

/-- A use of the checkout's code would change a row. -/
def NeedsRecord (db : CheckoutDb) (info : CheckoutInfo) : Prop :=
  ∃ voucher code, info.codeOf db = some (voucher, code) ∧
    (voucher.limited ∨ (voucher.singleUse ∧ code.isActive) ∨
      voucher.applyOncePerCustomer ∧ ¬ Refuses db voucher code info.getCustomerEmail)

/-- The checkout is still there and nothing prevents the order. -/
def GoesThrough (db : CheckoutDb) (info : CheckoutInfo) (failure : Option CheckoutError) : Prop :=
  (∃ checkout ∈ db.checkouts, checkout.token = info.checkout.token) ∧ failure = none

/-! ### The two transactions -/

section Blocks

variable {db : CheckoutDb} {info : CheckoutInfo} {order : Order} {failure : Option CheckoutError}
  {deleteCheckout : Bool} {now : Time} {code : Option VoucherCode}

theorem exec_createOrder_none (checkout : CheckoutRow) (db : CheckoutDb) :
    (createOrder checkout order none).exec db
      = (.ok (newOrder checkout order),
        { db with orders := db.orders ++ [newOrder checkout order] }) := rfl

theorem exec_createOrder_some (checkout : CheckoutRow) (e : CheckoutError) (db : CheckoutDb) :
    (createOrder checkout order (some e)).exec db
      = (.error e, { db with orders := db.orders ++ [newOrder checkout order] }) := rfl

/-- The second block, when the checkout is there and the order is built. -/
theorem exec_orderBlock_of_goesThrough (h : GoesThrough db info failure) :
    ∃ r db', (atomic (orderBlock info code order failure deleteCheckout)).exec db = (.ok r, db') ∧
      db'.usage = db.usage ∧ (∃ checkout, db.checkouts.find? (·.token = info.checkout.token)
          = some checkout ∧ db'.orders = db.orders ++ [newOrder checkout order]) ∧
        db'.vouchers = db.vouchers := by
  obtain ⟨⟨checkout, hcheckout, htoken⟩, rfl⟩ := h
  rcases hfind : db.checkouts.find? (·.token = info.checkout.token) with _ | c
  · have hnone := List.find?_eq_none.mp hfind checkout hcheckout
    simp [htoken] at hnone
  have hblock : (orderBlock info code order none deleteCheckout).exec db
      = (.ok (some (newOrder c order)), if deleteCheckout then
          { db with
            orders := db.orders ++ [newOrder c order]
            checkouts := db.checkouts.filter (·.token ≠ c.token) }
        else { db with orders := db.orders ++ [newOrder c order] }) := by
    rw [orderBlock, exec_bind, exec_get]
    simp only [hfind, exec_tryCatch, exec_bind_of_ok (exec_createOrder_none c db)]
    cases deleteCheckout
    · simp only [Bool.false_eq_true, if_false, exec_pure]
    · simp only [if_true, exec_bind, exec_modify, exec_pure]
  refine ⟨_, _, exec_atomic_of_ok hblock, ?_⟩
  cases deleteCheckout
  · exact ⟨rfl, ⟨c, hfind, rfl⟩, rfl⟩
  · exact ⟨rfl, ⟨c, hfind, rfl⟩, rfl⟩

/-- Anything else changes nothing at all: a release is undone with the rest of the block. -/
theorem exec_orderBlock_of_not_goesThrough (h : ¬ GoesThrough db info failure) :
    ((atomic (orderBlock info code order failure deleteCheckout)).exec db).2 = db := by
  rcases hfind : db.checkouts.find? (·.token = info.checkout.token) with _ | c
  · rw [exec_atomic, orderBlock, exec_bind, exec_get]
    simp only [hfind, exec_pure]
  rcases failure with _ | e
  · refine absurd ⟨⟨c, List.mem_of_find?_eq_some hfind, ?_⟩, rfl⟩ h
    simpa using List.find?_some hfind
  have hraises : ∃ e' db', (orderBlock info code order (some e) deleteCheckout).exec db
      = (.error e', db') := by
    rw [orderBlock, exec_bind, exec_get]
    simp only [hfind, exec_tryCatch, exec_bind_of_error (exec_createOrder_some c e db)]
    cases e
    case insufficientStock => exact exec_bind_throw _ _ _
    case giftCardNotApplicable => exact exec_bind_throw _ _ _
    all_goals exact ⟨_, _, rfl⟩
  obtain ⟨e', db', herror⟩ := hraises
  rw [exec_atomic_of_error herror]

/-- The first block records the use of what the lookup finds. -/
theorem exec_increaseVoucherCodeUsage_of_none
    (h : getVoucherForCheckout db info.checkout info.channelSlug now = .ok none) :
    (atomic (increaseVoucherCodeUsage info now)).exec db = (.ok none, db) := by
  refine exec_atomic_of_ok ?_
  rw [increaseVoucherCodeUsage, exec_bind, exec_get]
  simp only [h, exec_pure]

theorem exec_increaseVoucherCodeUsage_of_refuses {v : Voucher} {c : VoucherCode}
    (h : getVoucherForCheckout db info.checkout info.channelSlug now = .ok (some (v, c)))
    (hrefuses : Refuses db v c info.getCustomerEmail) :
    ∃ e, (atomic (increaseVoucherCodeUsage info now)).exec db = (.error e, db) := by
  obtain ⟨e, db', he⟩ := exec_increaseVoucherUsage_of_refuses hrefuses
  refine ⟨e, exec_atomic_of_error (?_ : _ = (_, db'))⟩
  rw [increaseVoucherCodeUsage, exec_bind, exec_get]
  simp only [h, exec_bind_of_error he]

theorem exec_increaseVoucherCodeUsage_of_not_refuses {v : Voucher} {c : VoucherCode}
    (h : getVoucherForCheckout db info.checkout info.channelSlug now = .ok (some (v, c)))
    (hrefuses : ¬ Refuses db v c info.getCustomerEmail) :
    (atomic (increaseVoucherCodeUsage info now)).exec db
      = (.ok (some c), db.recordUsage v c info.getCustomerEmail) := by
  refine exec_atomic_of_ok ?_
  rw [increaseVoucherCodeUsage, exec_bind, exec_get]
  simp only [h, exec_bind_of_ok (exec_increaseVoucherUsage_of_not_refuses hrefuses), exec_pure]

/-- The lookup finds the code on the checkout. -/
theorem codeOf_of_getVoucherForCheckout {v : Voucher} {c : VoucherCode}
    (hvoucher : info.voucher.isSome)
    (h : getVoucherForCheckout db info.checkout info.channelSlug now = .ok (some (v, c))) :
    c ∈ db.codes ∧ info.codeOf db = some (v, c) := by
  obtain ⟨r, hr, hfound⟩ := getVoucherForCheckout_ok db info.checkout info.channelSlug now
  rw [h] at hr
  obtain ⟨hc, hcode, -, hv, hpk⟩ := hfound v c (Except.ok.inj hr).symm
  refine ⟨hc, ?_⟩
  obtain ⟨v', hv'⟩ := Option.isSome_iff_exists.mp hvoucher
  have hfind : db.codes.rows.find? (·.code = c.code) = some c := by
    rcases hf : db.codes.rows.find? (·.code = c.code) with _ | c'
    · have hnone := List.find?_eq_none.mp hf c hc
      simp at hnone
    · have hcode' : c'.code = c.code := by simpa using List.find?_some hf
      rw [hf, code_eq_of_code_eq (List.mem_of_find?_eq_some hf) hc hcode']
  have hvfind : db.vouchers.find? c.voucher = some v := Table.find?_eq_some.mpr ⟨hv, hpk⟩
  rw [CheckoutInfo.codeOf, hv', hcode]
  simp only [hfind, Option.bind_some, hvfind, Option.map_some]

/-- A use changes the rows exactly when there is one to record. -/
theorem usage_withUsage_eq_iff : (db.withUsage info).usage = db.usage ↔ ¬ NeedsRecord db info := by
  rcases h : info.codeOf db with _ | ⟨v, c⟩
  · simp [CheckoutDb.withUsage, NeedsRecord, h]
  · have hc : c ∈ db.codes := by
      rw [CheckoutInfo.codeOf] at h
      split at h
      · obtain ⟨c', hc', hv'⟩ := Option.bind_eq_some_iff.mp h
        obtain ⟨v', -, hpair⟩ := Option.map_eq_some_iff.mp hv'
        obtain ⟨-, rfl⟩ := Prod.mk.inj hpair
        exact List.mem_of_find?_eq_some hc'
      · cases h
    have hwith : db.withUsage info = db.recordUsage v c info.getCustomerEmail := by
      simp only [CheckoutDb.withUsage, h]
    rw [hwith, usage_recordUsage_eq_iff hc, NeedsRecord]
    simp only [h, Option.some.injEq, Prod.mk.injEq]
    refine not_congr ⟨fun hneed => ⟨v, c, ⟨rfl, rfl⟩, hneed⟩, ?_⟩
    rintro ⟨v', c', ⟨rfl, rfl⟩, hneed⟩
    exact hneed

end Blocks

/-- **The voucher follows the order** exactly when there is no use to record, or the voucher
refuses the customer, or it is found valid just when the order goes through. -/
theorem createOrderFromCheckout_voucher_iff (db : CheckoutDb) (info : CheckoutInfo) (order : Order)
    (failure : Option CheckoutError) (deleteCheckout : Bool) (now : Time) :
    VoucherFollowsOrder info db
        ((createOrderFromCheckout info order failure deleteCheckout now).exec db).2
      ↔ ¬ NeedsRecord db info ∨
        (∃ voucher code, getVoucherForCheckout db info.checkout info.channelSlug now
            = .ok (some (voucher, code)) ∧ Refuses db voucher code info.getCustomerEmail) ∨
        ((∃ voucher code, getVoucherForCheckout db info.checkout info.channelSlug now
            = .ok (some (voucher, code))) ↔ GoesThrough db info failure) := by
  rcases hvoucher : info.voucher with _ | v₀
  · -- no voucher: nothing is recorded, whatever becomes of the order
    have hneed : ¬ NeedsRecord db info := by
      rintro ⟨v, c, hcode, -⟩
      simp [CheckoutInfo.codeOf, hvoucher] at hcode
    refine iff_of_true ?_ (Or.inl hneed)
    have hwith := usage_withUsage_eq_iff.mpr hneed
    have hexec : (createOrderFromCheckout info order failure deleteCheckout now).exec db
        = (atomic (orderBlock info none order failure deleteCheckout)).exec db := by
      rw [createOrderFromCheckout, hvoucher]
      rfl
    rw [VoucherFollowsOrder, hwith, ite_self, hexec]
    by_cases hthrough : GoesThrough db info failure
    · obtain ⟨r, db', hdb', husage, -⟩ := exec_orderBlock_of_goesThrough hthrough
      rw [hdb']
      exact husage
    · rw [exec_orderBlock_of_not_goesThrough hthrough]
  have hsplit : createOrderFromCheckout info order failure deleteCheckout now
      = atomic (increaseVoucherCodeUsage info now) >>= fun code =>
        atomic (orderBlock info code order failure deleteCheckout) := by
    rw [createOrderFromCheckout, hvoucher]
  obtain ⟨r, hr, -⟩ := getVoucherForCheckout_ok db info.checkout info.channelSlug now
  rw [hr, hsplit]
  rcases r with _ | ⟨v, c⟩
  · -- the voucher is not valid any more: an order goes through without a recorded use
    rw [exec_bind_of_ok (exec_increaseVoucherCodeUsage_of_none hr)]
    by_cases hthrough : GoesThrough db info failure
    · obtain ⟨r, db', hdb', husage, ⟨checkout, -, hsnoc⟩, -⟩ :=
        exec_orderBlock_of_goesThrough hthrough
      have horders : db'.orders ≠ db.orders := by simp [hsnoc]
      rw [hdb', VoucherFollowsOrder, if_pos horders, husage, eq_comm, usage_withUsage_eq_iff]
      simp [hthrough]
    · rw [exec_orderBlock_of_not_goesThrough hthrough]
      simp [VoucherFollowsOrder, hthrough]
  by_cases hrefuses : Refuses db v c info.getCustomerEmail
  · obtain ⟨e, he⟩ := exec_increaseVoucherCodeUsage_of_refuses hr hrefuses
    rw [exec_bind_of_error he]
    refine iff_of_true ?_ (Or.inr (Or.inl ⟨v, c, rfl, hrefuses⟩))
    simp [VoucherFollowsOrder]
  · -- the use is committed before the order is tried
    rw [exec_bind_of_ok (exec_increaseVoucherCodeUsage_of_not_refuses hr hrefuses)]
    obtain ⟨-, hcode⟩ := codeOf_of_getVoucherForCheckout (by rw [hvoucher]; rfl) hr
    have hwith : db.withUsage info = db.recordUsage v c info.getCustomerEmail := by
      simp only [CheckoutDb.withUsage, hcode]
    have hfound : ∃ v' c', (Except.ok (some (v, c)) : Except CheckoutError _) = .ok (some (v', c')) :=
      ⟨v, c, rfl⟩
    have hnot : ¬ ∃ v' c', (Except.ok (some (v, c)) : Except CheckoutError _)
        = .ok (some (v', c')) ∧ Refuses db v' c' info.getCustomerEmail := by
      rintro ⟨v', c', ⟨⟩, h⟩
      exact hrefuses h
    by_cases hthrough : GoesThrough (db.recordUsage v c info.getCustomerEmail) info failure
    · obtain ⟨r, db', hdb', husage, ⟨checkout, -, hsnoc⟩, -⟩ :=
        exec_orderBlock_of_goesThrough hthrough
      rw [hdb']
      refine iff_of_true ?_ (Or.inr (Or.inr (iff_of_true hfound hthrough)))
      have horders' : db'.orders ≠ db.orders := by
        rw [hsnoc]
        simp [CheckoutDb.recordUsage, CheckoutDb.updateCode]
      rw [VoucherFollowsOrder, if_pos horders', husage, hwith]
    · have hthrough' : ¬ GoesThrough db info failure := hthrough
      rw [exec_orderBlock_of_not_goesThrough hthrough, VoucherFollowsOrder, ← hwith,
        if_neg (by rw [hwith]; exact not_not.mpr rfl), usage_withUsage_eq_iff, iff_true_intro hfound]
      simp only [hnot, hthrough', iff_false, not_true_eq_false, or_false]

/-- A limited voucher on a checkout. -/
def limitedVoucher : Voucher where
  pk := 1
  usageLimit := some 10
  startDate := 0

/-- The tables around it. -/
def limitedVoucherDb : CheckoutDb where
  channels := [⟨1, "default", true⟩]
  vouchers := Table.singleton limitedVoucher
  channelListings := [{ voucher := 1, channel := 1 }]
  codes := Table.singleton { id := 1, code := "SAVE", voucher := 1 }
  codes_unique := by decide
  customers := []
  checkouts := [{ token := "t", voucherCode := some "SAVE" }]
  orders := []

/-- The checkout as it was read. -/
def limitedVoucherInfo : CheckoutInfo where
  checkout := { token := "t", voucherCode := some "SAVE" }
  channelSlug := "default"
  voucher := some limitedVoucher

/-- An order. -/
def someOrder : Order where
  pk := 1
  user := none
  status := .unconfirmed
  totalNetAmount := 0
  lines := []

/-- Out of stock, no order, and the code has been used once. -/
theorem createOrderFromCheckout_insufficientStock :
    ¬ ∀ (db : CheckoutDb) (info : CheckoutInfo) (order : Order) (failure : Option CheckoutError)
      (deleteCheckout : Bool) (now : Time),
      VoucherFollowsOrder info db
        ((createOrderFromCheckout info order failure deleteCheckout now).exec db).2 := by
  intro h
  have hfollows := h limitedVoucherDb limitedVoucherInfo someOrder (some .insufficientStock) true 5
  rw [VoucherFollowsOrder, if_neg (by decide)] at hfollows
  have hused := congrArg (fun usage => usage.1.rows.map (·.used)) hfollows
  revert hused
  decide

end Checkout

end Aixinwu
