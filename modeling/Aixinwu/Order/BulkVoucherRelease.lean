import Aixinwu.Order.ExpireOrders

/-!
# Releasing vouchers in bulk and one by one

`_bulk_release_voucher_usage` of `saleor/order/tasks.py` is to give back the voucher usage of a
batch of orders as `release_voucher_code_usage` of `saleor/discount/utils.py` does it for an order.

The bulk version differs in four ways. A limit of zero is a limit to it. It does not make codes for
one use active again. A row of a customer goes if its code is on some order and its e-mail on some
order, which need not be the same order. And rows with the empty e-mail may go.

## Main definitions

* `releaseEach` — one by one
* `ordersWith`, `releasedBy`, `namesRow`, `Fits`
* `ReleasesAlike`

## Main results

* `exec_releaseEach` — what releasing one by one does
* `releasesAlike_iff` — when it does the same
-/

namespace Aixinwu

namespace Expiry

open Checkout Aixinwu.Action

/-! ### One by one -/

/-- `release_voucher_code_usage(code, voucher, order.user_email)`, with the code of the order and
its voucher. -/
def releaseOrder (o : OrderColumns) : CheckoutAction Unit := do
  let db ← get
  match o.voucherCode with
  | none => pure ()
  | some voucherCode =>
    let code := db.codes.rows.find? (·.code = voucherCode)
    releaseVoucherCodeUsage code (code.bind fun c => db.vouchers.find? c.voucher) o.userEmail

/-- Once for each order. -/
def releaseEach : List OrderColumns → CheckoutAction Unit
  | [] => pure ()
  | o :: os => do
    releaseOrder o
    releaseEach os

/-- How many of the orders have the code. -/
def ordersWith (os : List OrderColumns) (c : VoucherCode) : ℕ :=
  os.countP fun o => o.voucherCode = some c.code

/-- The voucher of a code has a limit that is true. -/
def isLimited (vouchers : Table Voucher) (c : VoucherCode) : Bool :=
  (vouchers.find? c.voucher).any (·.limited)

/-- The voucher of a code is for one use. -/
def isSingleUse (vouchers : Table Voucher) (c : VoucherCode) : Bool :=
  (vouchers.find? c.voucher).any (·.singleUse)

/-- A code when the orders are released. -/
def releasedBy (vouchers : Table Voucher) (os : List OrderColumns) (c : VoucherCode) :
    VoucherCode :=
  c.update (if isLimited vouchers c then (· - ordersWith os c) else id)
    (if isSingleUse vouchers c && decide (0 < ordersWith os c) then fun _ => true else id)

/-- The code and the e-mail of a row are those of an order. -/
def namesRow (codes : Table VoucherCode) (row : VoucherCustomer) (o : OrderColumns) : Bool :=
  codes.rows.any (fun c => c.id = row.voucherCode && o.voucherCode = some c.code)
    && o.userEmail = some row.customerEmail && row.customerEmail ≠ ""

/-- No counter becomes negative. -/
def Fits (db : CheckoutDb) (os : List OrderColumns) : Prop :=
  ∀ c ∈ db.codes, isLimited db.vouchers c = true → ordersWith os c ≤ c.used

section Each

variable {db : CheckoutDb}

/-- What is removed of the rows of a code, for the e-mail of an order. -/
def keepsRow (code : ℕ) (userEmail : Option String) (row : VoucherCustomer) : Bool :=
  !(row.voucherCode = code && userEmail = some row.customerEmail && row.customerEmail ≠ "")

theorem filter_keepsRow_eq (rows : List VoucherCustomer) (code : ℕ) (userEmail : Option String) :
    rows.filter (keepsRow code userEmail) = match userEmail with
      | none => rows
      | some email => if email ≠ "" then rows.filter (· ≠ ⟨code, email⟩) else rows := by
  cases userEmail with
  | none => exact List.filter_eq_self.mpr fun row _ => by simp [keepsRow]
  | some email =>
    dsimp only
    by_cases hempty : email = ""
    · rw [if_neg (not_not.mpr hempty)]
      refine List.filter_eq_self.mpr fun row _ => ?_
      by_cases hrow : row.customerEmail = ""
      · simp [keepsRow, hrow]
      · simp [keepsRow, hempty, Ne.symm hrow]
    · rw [if_pos hempty]
      refine List.filter_congr fun row _ => ?_
      obtain ⟨voucherCode, customerEmail⟩ := row
      by_cases hcode : voucherCode = code
      · by_cases hemail : customerEmail = email
        · simp [keepsRow, hcode, hemail, hempty]
        · simp [keepsRow, hemail, Ne.symm hemail]
      · simp [keepsRow, hcode]

/-- The last step of a release, of the customer. -/
theorem exec_removeCustomer (code : VoucherCode) (userEmail : Option String) (db : CheckoutDb) :
    (match userEmail with
      | none => (pure () : CheckoutAction Unit)
      | some email => if email ≠ "" then removeVoucherUsageByCustomer code email else pure ()).exec
        db
      = (.ok (), { db with customers := db.customers.filter (keepsRow code.id userEmail) }) := by
  rw [filter_keepsRow_eq]
  cases userEmail with
  | none => rfl
  | some email =>
    dsimp only
    by_cases hempty : email = ""
    · rw [if_neg (not_not.mpr hempty), if_neg (not_not.mpr hempty)]
      rfl
    · rw [if_pos hempty, if_pos hempty]
      rfl

/-- A code and the rows of a customer after a release. -/
def releasedOf (db : CheckoutDb) (c : VoucherCode) (voucher : Option Voucher)
    (userEmail : Option String) : CheckoutDb :=
  { db.updateCode c.id (if voucher.any (·.limited) then (· - 1) else id)
      (if voucher.any (·.singleUse) then fun _ => true else id) with
    customers := db.customers.filter (keepsRow c.id userEmail) }

/-- **A release** that does not take a counter below zero. -/
theorem exec_releaseVoucherCodeUsage (c : VoucherCode) (voucher : Option Voucher)
    (userEmail : Option String)
    (h : voucher.any (·.limited) = true → ∀ r ∈ db.codes.rows, r.id = c.id → r.used ≠ 0) :
    (releaseVoucherCodeUsage (some c) voucher userEmail).exec db
      = (.ok (), releasedOf db c voucher userEmail) := by
  have hdecrease : voucher.any (·.limited) = true →
      (decreaseVoucherCodeUsageValue c).exec db = (.ok (), db.updateCode c.id (· - 1) id) := by
    intro hlimited
    have hany : (db.codes.rows.any fun r => r.id = c.id && r.used = 0) = false := by
      rw [List.any_eq_false]
      intro r hr hzero
      rw [Bool.and_eq_true, decide_eq_true_iff, decide_eq_true_iff] at hzero
      exact h hlimited r hr hzero.1 hzero.2
    simp only [decreaseVoucherCodeUsageValue, exec_bind, exec_get, hany, Bool.false_eq_true,
      if_false, exec_modify]
  rw [releasedOf, releaseVoucherCodeUsage.eq_def]
  dsimp only
  cases hlimited : voucher.any (·.limited) <;> cases hsingle : voucher.any (·.singleUse)
  · simp only [Bool.false_eq_true, if_false, updateCode_id]
    exact exec_removeCustomer c userEmail db
  · simp only [Bool.false_eq_true, if_false, if_true, exec_bind, activateVoucherCode, exec_modify]
    exact exec_removeCustomer c userEmail (db.updateCode c.id id fun _ => true)
  · simp only [Bool.false_eq_true, if_false, if_true, exec_bind, hdecrease hlimited]
    exact exec_removeCustomer c userEmail (db.updateCode c.id (· - 1) id)
  · have hupdate := updateCode_updateCode db c.id (· - 1) id id fun _ => true
    rw [Function.id_comp, Function.comp_id] at hupdate
    simp only [if_true, exec_bind, hdecrease hlimited, activateVoucherCode, exec_modify, hupdate]
    exact exec_removeCustomer c userEmail (db.updateCode c.id (· - 1) fun _ => true)

/-- A release that would take a counter below zero. -/
theorem exec_releaseVoucherCodeUsage_of_zero (c : VoucherCode) (voucher : Option Voucher)
    (userEmail : Option String) (hlimited : voucher.any (·.limited) = true)
    (h : ∃ r ∈ db.codes.rows, r.id = c.id ∧ r.used = 0) :
    (releaseVoucherCodeUsage (some c) voucher userEmail).exec db
      = (.error .integrityError, db) := by
  have hany : (db.codes.rows.any fun r => r.id = c.id && r.used = 0) = true := by
    obtain ⟨r, hr, hid, hzero⟩ := h
    exact List.any_eq_true.mpr ⟨r, hr, by simp [hid, hzero]⟩
  rw [releaseVoucherCodeUsage.eq_def]
  simp only [hlimited, if_true, exec_bind, decreaseVoucherCodeUsageValue, exec_get, hany,
    exec_throw]

/-! ### Counting orders -/

theorem ordersWith_append (os os' : List OrderColumns) (c : VoucherCode) :
    ordersWith (os ++ os') c = ordersWith os c + ordersWith os' c :=
  List.countP_append

theorem ordersWith_cons (o : OrderColumns) (os : List OrderColumns) (c : VoucherCode) :
    ordersWith (o :: os) c = ordersWith [o] c + ordersWith os c :=
  ordersWith_append [o] os c

theorem ordersWith_singleton (o : OrderColumns) (c : VoucherCode) :
    ordersWith [o] c = if o.voucherCode = some c.code then 1 else 0 := by
  rw [ordersWith, List.countP_singleton]
  by_cases h : o.voucherCode = some c.code <;> simp [h]

/-- Changes of a code are equal if the counters and the flags are. -/
theorem update_eq_update_iff {u u' : ℕ → ℕ} {a a' : Bool → Bool} {c : VoucherCode} :
    c.update u a = c.update u' a' ↔ u c.used = u' c.used ∧ a c.isActive = a' c.isActive := by
  rw [VoucherCode.update, VoucherCode.update, VoucherCode.mk.injEq]
  tauto

theorem update_id_id (c : VoucherCode) : c.update id id = c := rfl

theorem used_releasedBy (vouchers : Table Voucher) (os : List OrderColumns) (c : VoucherCode) :
    (releasedBy vouchers os c).used
      = if isLimited vouchers c then c.used - ordersWith os c else c.used := by
  rw [releasedBy, VoucherCode.update]
  cases isLimited vouchers c <;> rfl

theorem isActive_releasedBy (vouchers : Table Voucher) (os : List OrderColumns)
    (c : VoucherCode) :
    (releasedBy vouchers os c).isActive
      = (c.isActive || (isSingleUse vouchers c && decide (0 < ordersWith os c))) := by
  rw [releasedBy, VoucherCode.update]
  cases isSingleUse vouchers c && decide (0 < ordersWith os c) with
  | false => exact (Bool.or_false _).symm
  | true => exact (Bool.or_true _).symm

/-- Without an order a code stays as it is. -/
theorem releasedBy_of_ordersWith_eq_zero (vouchers : Table Voucher) {os : List OrderColumns}
    {c : VoucherCode} (h : ordersWith os c = 0) : releasedBy vouchers os c = c := by
  refine Eq.trans (update_eq_update_iff.mpr ⟨?_, ?_⟩) (update_id_id c)
  · have hused := used_releasedBy vouchers os c
    rw [h, Nat.sub_zero, ite_self] at hused
    exact hused
  · have hactive := isActive_releasedBy vouchers os c
    rw [h, decide_eq_false (lt_irrefl 0), Bool.and_false, Bool.or_false] at hactive
    exact hactive

/-- Releasing some orders and then others. -/
theorem releasedBy_append (vouchers : Table Voucher) (os os' : List OrderColumns)
    (c : VoucherCode) :
    releasedBy vouchers os' (releasedBy vouchers os c) = releasedBy vouchers (os ++ os') c := by
  have hused : (releasedBy vouchers os' (releasedBy vouchers os c)).used
      = (releasedBy vouchers (os ++ os') c).used := by
    have hlimited : isLimited vouchers (releasedBy vouchers os c) = isLimited vouchers c := rfl
    have horders : ordersWith os' (releasedBy vouchers os c) = ordersWith os' c := rfl
    rw [used_releasedBy, used_releasedBy, used_releasedBy, hlimited, horders, ordersWith_append]
    split <;> omega
  have hactive : (releasedBy vouchers os' (releasedBy vouchers os c)).isActive
      = (releasedBy vouchers (os ++ os') c).isActive := by
    have hsingle : isSingleUse vouchers (releasedBy vouchers os c) = isSingleUse vouchers c := rfl
    have horders : ordersWith os' (releasedBy vouchers os c) = ordersWith os' c := rfl
    have hpos : decide (0 < ordersWith os c + ordersWith os' c)
        = (decide (0 < ordersWith os c) || decide (0 < ordersWith os' c)) := by
      rw [Bool.eq_iff_iff, Bool.or_eq_true, decide_eq_true_iff, decide_eq_true_iff,
        decide_eq_true_iff]
      omega
    rw [isActive_releasedBy, isActive_releasedBy, isActive_releasedBy, hsingle, horders,
      ordersWith_append, hpos, Bool.and_or_distrib_left, Bool.or_assoc]
  rw [releasedBy, releasedBy, releasedBy, VoucherCode.update, VoucherCode.update,
    VoucherCode.update, VoucherCode.mk.injEq]
  exact ⟨rfl, rfl, hused, hactive, rfl⟩

/-- The rows when orders are released. -/
structure Released (db : CheckoutDb) (os : List OrderColumns) (s : CheckoutDb) : Prop where
  vouchers : s.vouchers = db.vouchers
  codes : s.codes.rows = db.codes.rows.map (releasedBy db.vouchers os)
  customers : s.customers = db.customers.filter fun row => !os.any (namesRow db.codes row)

/-- Which code and e-mail a row has does not depend on counters and flags. -/
theorem Released.namesRow_eq {os : List OrderColumns} {s : CheckoutDb} (h : Released db os s)
    (row : VoucherCustomer) : namesRow s.codes row = namesRow db.codes row := by
  funext o
  have hany : (s.codes.rows.any fun c => c.id = row.voucherCode && o.voucherCode = some c.code)
      = db.codes.rows.any fun c => c.id = row.voucherCode && o.voucherCode = some c.code := by
    rw [h.codes, List.any_map]
    rfl
  rw [namesRow, hany, namesRow]

theorem Released.append {os os' : List OrderColumns} {s s' : CheckoutDb}
    (h : Released db os s) (h' : Released s os' s') : Released db (os ++ os') s' where
  vouchers := h'.vouchers.trans h.vouchers
  codes := by
    rw [h'.codes, h.codes, h.vouchers, List.map_map]
    refine List.map_congr_left fun c _ => ?_
    exact releasedBy_append db.vouchers os os' c
  customers := by
    rw [h'.customers, h.customers, List.filter_filter]
    refine List.filter_congr fun row _ => ?_
    rw [h.namesRow_eq, List.any_append, Bool.not_or, Bool.and_comm]

/-- The counters that are left are enough for the orders that are left. -/
theorem Released.fits_iff {o : OrderColumns} {os : List OrderColumns} {s : CheckoutDb}
    (h : Released db [o] s) (hfirst : Fits db [o]) : Fits s os ↔ Fits db (o :: os) := by
  have hmem : (∀ c ∈ s.codes, isLimited s.vouchers c = true → ordersWith os c ≤ c.used)
      ↔ ∀ c ∈ db.codes, isLimited db.vouchers c = true →
        ordersWith os c ≤ (releasedBy db.vouchers [o] c).used := by
    rw [h.vouchers]
    constructor
    · intro hs c hc
      refine hs (releasedBy db.vouchers [o] c) ?_
      rw [Table.mem_def, h.codes]
      exact List.mem_map_of_mem hc
    · intro hdb r hr
      rw [Table.mem_def, h.codes] at hr
      obtain ⟨c, hc, rfl⟩ := List.mem_map.mp hr
      exact hdb c hc
  rw [Fits, hmem, Fits]
  refine forall₂_congr fun c hc => ?_
  refine imp_congr_right fun hlimited => ?_
  have hle := hfirst c hc hlimited
  have hsplit := ordersWith_cons o os c
  rw [used_releasedBy, if_pos hlimited, hsplit]
  omega

/-- Nothing is released for an order whose code is none. -/
theorem released_of_not_found {o : OrderColumns}
    (h : ∀ c ∈ db.codes, o.voucherCode ≠ some c.code) : Released db [o] db where
  vouchers := rfl
  codes := by
    refine ((List.map_congr_left fun c hc => ?_).trans (List.map_id _)).symm
    refine releasedBy_of_ordersWith_eq_zero db.vouchers ?_
    rw [ordersWith_singleton, if_neg (h c hc)]
  customers := by
    refine (List.filter_eq_self.mpr fun row _ => ?_).symm
    have hany : (db.codes.rows.any fun c =>
        c.id = row.voucherCode && o.voucherCode = some c.code) = false := by
      rw [List.any_eq_false]
      intro c hc hmatch
      rw [Bool.and_eq_true, decide_eq_true_iff, decide_eq_true_iff] at hmatch
      exact h c hc hmatch.2
    simp [namesRow, hany]

/-- What is released for an order whose code is found. -/
theorem released_of_found {o : OrderColumns} {c : VoucherCode} (hc : c ∈ db.codes)
    (ho : o.voucherCode = some c.code) :
    Released db [o] (releasedOf db c (db.vouchers.find? c.voucher) o.userEmail) where
  vouchers := rfl
  codes := by
    rw [releasedOf, CheckoutDb.updateCode]
    dsimp only
    rw [Table.modify, Table.rows_map]
    refine List.map_congr_left fun r hr => ?_
    by_cases hid : HasPk.pk r = c.id
    · obtain rfl : r = c := Table.eq_of_pk_eq hr hc hid
      have hone : ordersWith [o] r = 1 := by rw [ordersWith_singleton, if_pos ho]
      rw [if_pos hid, releasedBy, hone, isLimited, isSingleUse]
      simp
    · have hother : o.voucherCode ≠ some r.code := by
        intro hcode
        refine hid ?_
        rw [code_eq_of_code_eq hr hc (Option.some.inj (hcode.symm.trans ho))]
        rfl
      rw [if_neg hid, releasedBy_of_ordersWith_eq_zero]
      rw [ordersWith_singleton, if_neg hother]
  customers := by
    refine List.filter_congr fun row _ => ?_
    have hany : (db.codes.rows.any fun r =>
        r.id = row.voucherCode && o.voucherCode = some r.code)
          = decide (row.voucherCode = c.id) := by
      rw [Bool.eq_iff_iff, List.any_eq_true, decide_eq_true_iff]
      constructor
      · rintro ⟨r, hr, hmatch⟩
        rw [Bool.and_eq_true, decide_eq_true_iff, decide_eq_true_iff] at hmatch
        rw [← hmatch.1, code_eq_of_code_eq hr hc (Option.some.inj (hmatch.2.symm.trans ho))]
      · intro hid
        exact ⟨c, hc, by simp [hid, ho]⟩
    simp [namesRow, hany, keepsRow]

/-! ### What releasing one by one does -/

/-- A release of an order whose code has enough uses. -/
theorem exec_releaseOrder {o : OrderColumns} (h : Fits db [o]) :
    ∃ s, (releaseOrder o).exec db = (.ok (), s) ∧ Released db [o] s := by
  rw [releaseOrder]
  simp only [exec_bind, exec_get]
  cases ho : o.voucherCode with
  | none => exact ⟨db, rfl, released_of_not_found fun c _ hcode => by simp [ho] at hcode⟩
  | some code =>
    dsimp only
    cases hfind : db.codes.rows.find? (·.code = code) with
    | none =>
      refine ⟨db, rfl, released_of_not_found fun c hc hcode => ?_⟩
      have hne := List.find?_eq_none.mp hfind c hc
      exact hne (decide_eq_true (Option.some.inj (hcode.symm.trans ho)))
    | some c =>
      have hc : c ∈ db.codes := List.mem_of_find?_eq_some hfind
      have hcode : c.code = code := by simpa using List.find?_some hfind
      have hfound : o.voucherCode = some c.code := ho.trans (congrArg some hcode.symm)
      refine ⟨_, exec_releaseVoucherCodeUsage c _ o.userEmail ?_, released_of_found hc hfound⟩
      intro hlimited r hr hid hzero
      obtain rfl : r = c := Table.eq_of_pk_eq hr hc hid
      have hle := h r hc hlimited
      rw [ordersWith_singleton, if_pos hfound] at hle
      omega

/-- A release of an order whose code has none. -/
theorem exec_releaseOrder_of_not_fits {o : OrderColumns} (h : ¬ Fits db [o]) :
    (releaseOrder o).exec db = (.error .integrityError, db) := by
  rw [Fits] at h
  push Not at h
  obtain ⟨c, hc, hlimited, hless⟩ := h
  have hfound : o.voucherCode = some c.code := by
    by_contra hne
    rw [ordersWith_singleton, if_neg hne] at hless
    omega
  have hfind : db.codes.rows.find? (·.code = c.code) = some c := by
    obtain ⟨c', hfind⟩ := Option.isSome_iff_exists.mp
      (List.find?_isSome.mpr ⟨c, hc, decide_eq_true rfl⟩ :
        (db.codes.rows.find? (·.code = c.code)).isSome = true)
    have hcode : c'.code = c.code := by simpa using List.find?_some hfind
    rw [hfind, code_eq_of_code_eq (List.mem_of_find?_eq_some hfind) hc hcode]
  have hzero : c.used = 0 := by
    rw [ordersWith_singleton, if_pos hfound] at hless
    omega
  rw [releaseOrder]
  simp only [exec_bind, exec_get, hfound, hfind]
  exact exec_releaseVoucherCodeUsage_of_zero c _ o.userEmail hlimited ⟨c, hc, rfl, hzero⟩

/-- **Releasing one by one** counts each code down once for each of its orders, makes the codes for
one use active, and removes the rows of the orders. -/
theorem exec_releaseEach {os : List OrderColumns} (h : Fits db os) :
    ∃ s, (releaseEach os).exec db = (.ok (), s) ∧ Released db os s := by
  induction os generalizing db with
  | nil =>
    refine ⟨db, rfl, rfl, ?_, ?_⟩
    · exact ((List.map_congr_left fun c _ =>
        releasedBy_of_ordersWith_eq_zero db.vouchers rfl).trans (List.map_id _)).symm
    · exact (List.filter_eq_self.mpr fun row _ => rfl).symm
  | cons o os ih =>
    have hfirst : Fits db [o] := by
      intro c hc hlimited
      have hle := h c hc hlimited
      rw [ordersWith_cons] at hle
      omega
    obtain ⟨s, hexec, hreleased⟩ := exec_releaseOrder hfirst
    obtain ⟨s', hrest, hreleased'⟩ := ih ((hreleased.fits_iff hfirst).mpr h)
    refine ⟨s', ?_, hreleased.append hreleased'⟩
    rw [releaseEach, exec_bind, hexec]
    exact hrest

/-- It raises where a counter would become negative. -/
theorem exec_releaseEach_of_not_fits {os : List OrderColumns} (h : ¬ Fits db os) :
    ∃ s, (releaseEach os).exec db = (.error .integrityError, s) := by
  induction os generalizing db with
  | nil => exact absurd (fun c _ _ => Nat.zero_le _) h
  | cons o os ih =>
    rw [releaseEach, exec_bind]
    by_cases hfirst : Fits db [o]
    · obtain ⟨s, hexec, hreleased⟩ := exec_releaseOrder hfirst
      obtain ⟨s', hrest⟩ := ih (mt (hreleased.fits_iff hfirst).mp h)
      rw [hexec]
      exact ⟨s', hrest⟩
    · rw [exec_releaseOrder_of_not_fits hfirst]
      exact ⟨db, rfl⟩

end Each

/-! ### In bulk -/

section Bulk

variable (db : Db) (orderIds : List ℕ)

/-- The orders of a batch. -/
def Db.batch : List OrderColumns :=
  (db.orders.filter fun o => o.pk ∈ orderIds).map fun o => db.columns o.pk

/-- The voucher of a code has a limit, maybe zero. -/
def hasLimit (vouchers : Table Voucher) (c : VoucherCode) : Bool :=
  (vouchers.find? c.voucher).any (·.usageLimit.isSome)

/-- The code of a row is on an order of the batch, and its e-mail is on an order of the batch. -/
def bulkNamesRow (codes : Table VoucherCode) (os : List OrderColumns) (row : VoucherCustomer) :
    Bool :=
  codes.rows.any (fun c => c.id = row.voucherCode && decide (0 < ordersWith os c))
    && os.any fun o => o.userEmail = some row.customerEmail

/-- The rows of the vouchers' books that the orders leave when they are released one by one. -/
def releasedOneByOne (db : CheckoutDb) (os : List OrderColumns) :
    Except CheckoutError (Table VoucherCode × List VoucherCustomer) :=
  match (releaseEach os).exec db with
  | (.ok (), s) => .ok s.usage
  | (.error e, _) => .error e

/-- The bulk release leaves the books as releasing one by one does. -/
def ReleasesAlike : Prop :=
  (db.bulkReleaseVoucherUsage orderIds).map (fun s => s.toCheckoutDb.usage)
    = releasedOneByOne db.toCheckoutDb (db.batch orderIds)

variable {db orderIds}

theorem length_voucherOrders (c : VoucherCode) :
    (db.voucherOrders orderIds c).length = ordersWith (db.batch orderIds) c := by
  rw [Db.voucherOrders, ordersWith, Db.batch, List.countP_map, List.countP_filter,
    List.countP_eq_length_filter]
  refine congrArg List.length (List.filter_congr fun o _ => ?_)
  rw [Bool.and_comm]
  rfl

theorem any_voucher_eq (vouchers : Table Voucher) (k : ℕ) (p : Voucher → Bool) :
    (vouchers.rows.any fun v => v.pk = k && p v) = (vouchers.find? k).any p := by
  rw [Bool.eq_iff_iff, List.any_eq_true, Option.any_eq_true]
  constructor
  · rintro ⟨v, hv, h⟩
    rw [Bool.and_eq_true, decide_eq_true_iff] at h
    exact ⟨v, Table.find?_eq_some.mpr ⟨hv, h.1⟩, h.2⟩
  · rintro ⟨v, hfind, h⟩
    obtain ⟨hv, hpk⟩ := Table.find?_eq_some.mp hfind
    exact ⟨v, hv, by rw [Bool.and_eq_true, decide_eq_true_iff]; exact ⟨hpk, h⟩⟩

theorem isReleased_eq (c : VoucherCode) :
    db.isReleased orderIds c
      = (decide (0 < ordersWith (db.batch orderIds) c) && hasLimit db.vouchers c) := by
  rw [Db.isReleased, any_voucher_eq, hasLimit, ← length_voucherOrders]
  cases db.voucherOrders orderIds c <;> rfl

/-- A limit that is true is a limit. -/
theorem hasLimit_of_isLimited {vouchers : Table Voucher} {c : VoucherCode}
    (h : isLimited vouchers c = true) : hasLimit vouchers c = true := by
  rw [isLimited, Option.any_eq_true] at h
  obtain ⟨v, hfind, hlimited⟩ := h
  rw [hasLimit, Option.any_eq_true]
  refine ⟨v, hfind, ?_⟩
  rw [Voucher.limited] at hlimited
  cases hlimit : v.usageLimit with
  | none => simp [hlimit] at hlimited
  | some n => rfl

/-- What the bulk release makes of a code. -/
theorem release_eq (c : VoucherCode) :
    db.release orderIds c = c.update
      (if decide (0 < ordersWith (db.batch orderIds) c) && hasLimit db.vouchers c then
        (· - ordersWith (db.batch orderIds) c) else id) id := by
  rw [Db.release, isReleased_eq, length_voucherOrders]

/-- The rows the bulk release removes. -/
theorem customers_bulk (row : VoucherCustomer) :
    ((db.codes.rows.any fun c =>
        c.id = row.voucherCode && !(db.voucherOrders orderIds c).isEmpty) &&
      db.orders.any fun o =>
        o.pk ∈ orderIds && (db.columns o.pk).userEmail = some row.customerEmail)
      = bulkNamesRow db.codes (db.batch orderIds) row := by
  have hempty : ∀ c, (!(db.voucherOrders orderIds c).isEmpty)
      = decide (0 < ordersWith (db.batch orderIds) c) := by
    intro c
    rw [← length_voucherOrders]
    cases db.voucherOrders orderIds c <;> rfl
  rw [bulkNamesRow, Db.batch, List.any_map, List.any_filter]
  simp only [hempty]
  rfl

/-! ### When they agree -/

variable (db orderIds)

/-- No code of the batch is of a voucher with the limit zero. -/
def NoZeroLimit : Prop :=
  ∀ c ∈ db.codes, 0 < ordersWith (db.batch orderIds) c →
    isLimited db.vouchers c = hasLimit db.vouchers c

/-- No code of the batch is to be made active again. -/
def NoneToActivate : Prop :=
  ∀ c ∈ db.codes, 0 < ordersWith (db.batch orderIds) c → isSingleUse db.vouchers c = true →
    c.isActive = true

/-- A row whose code and whose e-mail are both on orders of the batch has an order with both, and
its e-mail is not empty. -/
def NamedTogether : Prop :=
  ∀ row ∈ db.customers, bulkNamesRow db.codes (db.batch orderIds) row = true →
    (db.batch orderIds).any (namesRow db.codes row) = true

variable {db orderIds}

/-- Filters that keep the same. -/
theorem filter_eq_filter_iff {α : Type*} {p q : α → Bool} {l : List α} :
    l.filter p = l.filter q ↔ ∀ a ∈ l, p a = q a := by
  constructor
  · intro h a ha
    rw [Bool.eq_iff_iff]
    constructor
    · exact fun hp => (List.mem_filter.mp (h ▸ List.mem_filter.mpr ⟨ha, hp⟩)).2
    · exact fun hq => (List.mem_filter.mp (h ▸ List.mem_filter.mpr ⟨ha, hq⟩)).2
  · exact List.filter_congr

/-- Both make the same of the codes if no counter becomes negative. -/
theorem map_release_eq_iff
    (hfits : ∀ c ∈ db.codes, (decide (0 < ordersWith (db.batch orderIds) c)
      && hasLimit db.vouchers c) = true → ordersWith (db.batch orderIds) c ≤ c.used) :
    db.codes.rows.map (db.release orderIds)
        = db.codes.rows.map (releasedBy db.vouchers (db.batch orderIds))
      ↔ NoZeroLimit db orderIds ∧ NoneToActivate db orderIds := by
  have heach : ∀ c ∈ db.codes.rows,
      db.release orderIds c = releasedBy db.vouchers (db.batch orderIds) c
        ↔ (0 < ordersWith (db.batch orderIds) c →
            isLimited db.vouchers c = hasLimit db.vouchers c) ∧
          (0 < ordersWith (db.batch orderIds) c → isSingleUse db.vouchers c = true →
            c.isActive = true) := by
    intro c hc
    rw [release_eq, releasedBy, update_eq_update_iff]
    by_cases hpos : 0 < ordersWith (db.batch orderIds) c
    · have hle := hfits c hc
      rw [decide_eq_true hpos, Bool.true_and] at hle
      rw [decide_eq_true hpos, Bool.true_and, Bool.and_true]
      simp only [hpos, forall_const]
      refine and_congr ?_ ?_
      · cases hlimited : isLimited db.vouchers c with
        | true =>
          rw [hasLimit_of_isLimited hlimited]
          exact iff_of_true rfl rfl
        | false =>
          cases hhas : hasLimit db.vouchers c with
          | true =>
            have hused := hle hhas
            refine iff_of_false (fun heq => ?_) (by simp)
            simp only [if_true, Bool.false_eq_true, if_false, id] at heq
            omega
          | false => exact iff_of_true rfl rfl
      · cases isSingleUse db.vouchers c with
        | true => simp
        | false => simp
    · have hzero : ordersWith (db.batch orderIds) c = 0 := by omega
      refine iff_of_true ?_ ⟨fun h => absurd h hpos, fun h => absurd h hpos⟩
      have hnone : decide (0 < ordersWith (db.batch orderIds) c) = false := decide_eq_false hpos
      rw [hnone, Bool.false_and, Bool.and_false, hzero]
      refine ⟨?_, rfl⟩
      cases isLimited db.vouchers c <;> rfl
  rw [List.map_inj_left, NoZeroLimit, NoneToActivate]
  constructor
  · intro h
    exact ⟨fun c hc => ((heach c hc).mp (h c hc)).1, fun c hc => ((heach c hc).mp (h c hc)).2⟩
  · rintro ⟨hzero, hactive⟩ c hc
    exact (heach c hc).mpr ⟨hzero c hc, hactive c hc⟩

/-- Both remove the same rows. -/
theorem filter_customers_eq_iff :
    (db.customers.filter fun row => !bulkNamesRow db.codes (db.batch orderIds) row)
        = (db.customers.filter fun row => !(db.batch orderIds).any (namesRow db.codes row))
      ↔ NamedTogether db orderIds := by
  rw [filter_eq_filter_iff, NamedTogether]
  refine forall₂_congr fun row _ => ?_
  rw [Bool.not_inj_iff, Bool.eq_iff_iff]
  refine ⟨fun h => h.mp, fun h => ⟨h, fun hany => ?_⟩⟩
  -- an order with both names the row for the bulk release, too
  obtain ⟨o, ho, hnames⟩ := List.any_eq_true.mp hany
  rw [namesRow, Bool.and_eq_true, Bool.and_eq_true, decide_eq_true_iff] at hnames
  obtain ⟨⟨hcode, hemail⟩, -⟩ := hnames
  obtain ⟨c, hc, hmatch⟩ := List.any_eq_true.mp hcode
  rw [Bool.and_eq_true, decide_eq_true_iff, decide_eq_true_iff] at hmatch
  have hpos : 0 < ordersWith (db.batch orderIds) c :=
    List.countP_pos_iff.mpr ⟨o, ho, decide_eq_true hmatch.2⟩
  rw [bulkNamesRow, Bool.and_eq_true]
  refine ⟨List.any_eq_true.mpr ⟨c, hc, ?_⟩, List.any_eq_true.mpr ⟨o, ho, decide_eq_true hemail⟩⟩
  rw [Bool.and_eq_true]
  exact ⟨decide_eq_true hmatch.1, decide_eq_true hpos⟩

/-- The bulk release raises if a counter would become negative. -/
theorem bulkReleaseVoucherUsage_eq_error
    (h : ∃ c ∈ db.codes, (decide (0 < ordersWith (db.batch orderIds) c)
      && hasLimit db.vouchers c) = true ∧ c.used < ordersWith (db.batch orderIds) c) :
    db.bulkReleaseVoucherUsage orderIds = .error .integrityError := by
  obtain ⟨c, hc, hreleased, hless⟩ := h
  refine if_pos (List.any_eq_true.mpr ⟨c, hc, ?_⟩)
  rw [isReleased_eq, length_voucherOrders, hreleased, Bool.true_and]
  exact decide_eq_true hless

/-- The books after a bulk release in which no counter becomes negative. -/
theorem usage_bulkReleaseVoucherUsage
    (h : ∀ c ∈ db.codes, (decide (0 < ordersWith (db.batch orderIds) c)
      && hasLimit db.vouchers c) = true → ordersWith (db.batch orderIds) c ≤ c.used) :
    (db.bulkReleaseVoucherUsage orderIds).map (fun s => s.toCheckoutDb.usage)
      = .ok (db.codes.map (db.release orderIds) (pk_release db orderIds),
        db.customers.filter fun row => !bulkNamesRow db.codes (db.batch orderIds) row) := by
  have hnone : ¬ (db.codes.rows.any fun c =>
      db.isReleased orderIds c && c.used < (db.voucherOrders orderIds c).length) = true := by
    intro hany
    obtain ⟨c, hc, hboth⟩ := List.any_eq_true.mp hany
    rw [isReleased_eq, length_voucherOrders, Bool.and_eq_true, decide_eq_true_iff] at hboth
    exact absurd (h c hc hboth.1) (not_le.mpr hboth.2)
  rw [Db.bulkReleaseVoucherUsage, if_neg hnone]
  simp only [← customers_bulk]
  rfl

/-- **The bulk release leaves the books as releasing one by one** exactly if both raise, as a
counter would become negative, or no limit is zero, no code has to be made active again, and no row
is named by the code of one order and the e-mail of another. -/
theorem releasesAlike_iff (db : Db) (orderIds : List ℕ) :
    ReleasesAlike db orderIds
      ↔ ¬ Fits db.toCheckoutDb (db.batch orderIds) ∨
        NoZeroLimit db orderIds ∧ NoneToActivate db orderIds ∧ NamedTogether db orderIds := by
  rw [ReleasesAlike, releasedOneByOne]
  by_cases hfits : Fits db.toCheckoutDb (db.batch orderIds)
  · obtain ⟨s, hexec, hreleased⟩ := exec_releaseEach hfits
    rw [hexec, or_iff_right (not_not.mpr hfits)]
    dsimp only
    by_cases hbulk : ∀ c ∈ db.codes, (decide (0 < ordersWith (db.batch orderIds) c)
        && hasLimit db.vouchers c) = true → ordersWith (db.batch orderIds) c ≤ c.used
    · have hcodes : db.codes.map (db.release orderIds) (pk_release db orderIds) = s.codes
          ↔ NoZeroLimit db orderIds ∧ NoneToActivate db orderIds := by
        rw [← map_release_eq_iff hbulk, ← hreleased.codes]
        exact ⟨fun h => congrArg Table.rows h, fun h => Table.ext h⟩
      have hcustomers : (db.customers.filter fun row =>
            !bulkNamesRow db.codes (db.batch orderIds) row) = s.customers
          ↔ NamedTogether db orderIds := by
        rw [hreleased.customers]
        exact filter_customers_eq_iff
      rw [usage_bulkReleaseVoucherUsage hbulk, CheckoutDb.usage, Except.ok.injEq, Prod.mk.injEq,
        hcodes, hcustomers, and_assoc]
    · push Not at hbulk
      rw [bulkReleaseVoucherUsage_eq_error hbulk]
      refine iff_of_false (fun h => ?_) fun h => ?_
      · cases h
      · -- only a limit of zero makes just the bulk release raise
        obtain ⟨c, hc, hreleased, hless⟩ := hbulk
        rw [Bool.and_eq_true, decide_eq_true_iff] at hreleased
        have hlimited := (h.1 c hc hreleased.1).trans hreleased.2
        exact absurd (hfits c hc hlimited) (not_le.mpr hless)
  · obtain ⟨s, hexec⟩ := exec_releaseEach_of_not_fits hfits
    rw [hexec]
    refine iff_of_true ?_ (Or.inl hfits)
    rw [Fits] at hfits
    push Not at hfits
    obtain ⟨c, hc, hlimited, hless⟩ := hfits
    rw [bulkReleaseVoucherUsage_eq_error]
    · rfl
    · refine ⟨c, hc, ?_, hless⟩
      rw [hasLimit_of_isLimited hlimited, Bool.and_true]
      exact decide_eq_true (by omega)

end Bulk

/-! ### The row of somebody else, and a code for one use -/

/-- Two orders with the columns of a batch. -/
def twoOrders : List Order :=
  [{ pk := 1, user := none, status := .unconfirmed, totalNetAmount := 0, lines := [] },
    { pk := 2, user := none, status := .unconfirmed, totalNetAmount := 0, lines := [] }]

/-- The code A is on the order of the first customer, and the code B on that of the second, who used
the code A with an order that is not in the batch. -/
def crossedCustomers : Db where
  channels := []
  vouchers := .singleton { pk := 1, startDate := 0, applyOncePerCustomer := true }
  channelListings := []
  codes := ⟨[{ id := 1, code := "A", voucher := 1 }, { id := 2, code := "B", voucher := 1 }],
    by decide⟩
  codes_unique := by decide
  customers := [⟨1, "first"⟩, ⟨2, "second"⟩, ⟨1, "second"⟩]
  checkouts := []
  orders := twoOrders
  columns pk :=
    if pk = 1 then { voucherCode := some "A", userEmail := some "first" }
    else { voucherCode := some "B", userEmail := some "second" }

/-- The order of a code for one use. -/
def usedOnce : Db where
  channels := []
  vouchers := .singleton { pk := 1, startDate := 0, singleUse := true }
  channelListings := []
  codes := .singleton { id := 1, code := "A", isActive := false, voucher := 1 }
  codes_unique := by decide
  customers := []
  checkouts := []
  orders := twoOrders
  columns pk := if pk = 1 then { voucherCode := some "A" } else {}

/-- The bulk release removes the row of the second customer and the code A, which no order of the
batch has, and it leaves the code for one use inactive. -/
theorem not_releasesAlike_crossedCustomers :
    ¬ ReleasesAlike crossedCustomers [1, 2] ∧ ¬ ReleasesAlike usedOnce [1, 2] := by
  constructor
  · intro h
    have hcustomers := congrArg (Except.map Prod.snd) h
    exact absurd hcustomers (by decide)
  · intro h
    have hcodes := congrArg (Except.map fun usage => usage.1.rows) h
    exact absurd hcodes (by decide)

end Expiry

end Aixinwu
