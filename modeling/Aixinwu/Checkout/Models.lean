import Aixinwu.Order.Models

/-!
# Checkouts and vouchers

The rows of `saleor/checkout/models.py` and `saleor/discount/models.py` that turning a checkout
into an order reads or writes as far as vouchers are concerned: the checkout with its voucher code,
vouchers with their limits and what they take off, the codes of a voucher with their usage counters,
and who has used a code. The prices of a checkout are in `Aixinwu.Checkout.Prices`.

That `VoucherCode.code` is unique is a database constraint; here it is a field of the state, so
every write has to keep it.

## Main definitions

* `Voucher`, `VoucherType`, `VoucherCode`, `VoucherCustomer`
* `Checkout`, `CheckoutInfo`
* `CheckoutDb`, `CheckoutDb.updateCode`
* `Voucher.activeInChannel` — `VoucherQueryset.active_in_channel`
-/

namespace Aixinwu

namespace Checkout

/-- `channel.models.Channel`. -/
structure Channel where
  pk : ℕ
  slug : String
  isActive : Bool
deriving DecidableEq, Repr

/-- `discount.VoucherType`. -/
inductive VoucherType where
  | shipping
  | entireOrder
  | specificProduct
deriving DecidableEq, Repr

/-- `discount.DiscountValueType`. -/
inductive DiscountValueType where
  | fixed
  | percentage
deriving DecidableEq, Repr

/-- `discount.models.Voucher`. -/
structure Voucher where
  pk : ℕ
  type : VoucherType := .entireOrder
  usageLimit : Option ℕ := none
  startDate : Time
  endDate : Option Time := none
  applyOncePerOrder : Bool := false
  applyOncePerCustomer : Bool := false
  singleUse : Bool := false
  discountValueType : DiscountValueType := .fixed
deriving DecidableEq, Repr

instance : HasPk Voucher ℕ := ⟨Voucher.pk⟩

@[simp] theorem pk_voucher (v : Voucher) : HasPk.pk v = v.pk := rfl

/-- `voucher.usage_limit` as a truth value. -/
def Voucher.limited (v : Voucher) : Bool :=
  match v.usageLimit with
  | some n => n ≠ 0
  | none => false

/-- `discount.models.VoucherChannelListing`. -/
structure VoucherChannelListing where
  voucher : ℕ
  channel : ℕ
  discountValue : ℚ := 0
deriving DecidableEq, Repr

/-- `discount.models.VoucherCode`. -/
structure VoucherCode where
  id : ℕ
  code : String
  used : ℕ := 0
  isActive : Bool := true
  voucher : ℕ
deriving DecidableEq, Repr

instance : HasPk VoucherCode ℕ := ⟨VoucherCode.id⟩

@[simp] theorem pk_voucherCode (c : VoucherCode) : HasPk.pk c = c.id := rfl

/-- `discount.models.VoucherCustomer`. -/
structure VoucherCustomer where
  voucherCode : ℕ
  customerEmail : String
deriving DecidableEq, Repr

/-- `checkout.models.Checkout`; `userEmail` is the e-mail of its user. -/
structure CheckoutRow where
  token : String
  voucherCode : Option String := none
  userEmail : Option String := none
  email : Option String := none
deriving DecidableEq, Repr

instance : HasPk CheckoutRow String := ⟨CheckoutRow.token⟩

@[simp] theorem pk_checkoutRow (c : CheckoutRow) : HasPk.pk c = c.token := rfl

/-- `Checkout.get_customer_email`. -/
def CheckoutRow.getCustomerEmail (c : CheckoutRow) : Option String := c.userEmail.or c.email

/-- `checkout.fetch.CheckoutInfo`: the checkout as it was read, with the voucher found then. -/
structure CheckoutInfo where
  checkout : CheckoutRow
  userEmail : Option String := none
  channelSlug : String
  voucher : Option Voucher
deriving DecidableEq, Repr

/-- `CheckoutInfo.get_customer_email`. -/
def CheckoutInfo.getCustomerEmail (info : CheckoutInfo) : Option String :=
  info.userEmail.or info.checkout.email

/-- The tables. -/
structure CheckoutDb where
  channels : List Channel
  vouchers : Table Voucher
  channelListings : List VoucherChannelListing
  codes : Table VoucherCode
  codes_unique : (codes.rows.map (·.code)).Nodup
  customers : List VoucherCustomer
  checkouts : List CheckoutRow
  orders : List Order

/-- The rows that record how a voucher was used. -/
def CheckoutDb.usage (db : CheckoutDb) : Table VoucherCode × List VoucherCustomer :=
  (db.codes, db.customers)

/-- Change the counter and the flag of a code, and nothing that is unique. -/
def VoucherCode.update (used : ℕ → ℕ) (isActive : Bool → Bool) (c : VoucherCode) : VoucherCode :=
  { c with used := used c.used, isActive := isActive c.isActive }

theorem VoucherCode.pk_update (used : ℕ → ℕ) (isActive : Bool → Bool) (c : VoucherCode) :
    HasPk.pk (c.update used isActive) = HasPk.pk c := by
  rw [update, pk_voucherCode, pk_voucherCode]

theorem VoucherCode.code_update (used : ℕ → ℕ) (isActive : Bool → Bool) (c : VoucherCode) :
    (c.update used isActive).code = c.code := by
  rw [update]

/-- `code.save(update_fields=…)`. -/
def CheckoutDb.updateCode (db : CheckoutDb) (id : ℕ) (used : ℕ → ℕ) (isActive : Bool → Bool) :
    CheckoutDb where
  channels := db.channels
  vouchers := db.vouchers
  channelListings := db.channelListings
  codes := db.codes.modify id (VoucherCode.update used isActive)
    (VoucherCode.pk_update used isActive)
  codes_unique := by
    rw [Table.map_rows_modify]
    · exact db.codes_unique
    · exact VoucherCode.code_update used isActive
  customers := db.customers
  checkouts := db.checkouts
  orders := db.orders

/-! ### Which vouchers are valid -/

/-- The subquery of `VoucherQueryset.active`: it is grouped by code and cut off after one row, so
what is compared with the limit is the counter of one code of the voucher, the first. -/
def CheckoutDb.totalUsed (db : CheckoutDb) (v : Voucher) : Option ℕ :=
  (db.codes.rows.find? (·.voucher = v.pk)).map (·.used)

/-- `VoucherQueryset.active`. -/
def CheckoutDb.voucherActive (db : CheckoutDb) (date : Time) (v : Voucher) : Bool :=
  (match v.usageLimit, db.totalUsed v with
    | none, _ => true
    | some limit, some used => limit > used
    | some _, none => false) &&
  (match v.endDate with
    | none => true
    | some endDate => endDate ≥ date) &&
  v.startDate ≤ date

/-- `VoucherQueryset.active_in_channel`. -/
def CheckoutDb.voucherActiveInChannel (db : CheckoutDb) (date : Time) (channelSlug : String)
    (v : Voucher) : Bool :=
  db.voucherActive date v &&
    db.channelListings.any fun l =>
      l.voucher = v.pk &&
        db.channels.any fun c => c.slug = channelSlug && c.isActive && c.pk = l.channel

end Checkout

end Aixinwu
