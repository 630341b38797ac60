import Aixinwu.Checkout.VoucherUsage
import Mathlib.Data.Finset.Basic
import Mathlib.Data.List.Sort
import Mathlib.Data.String.Basic

/-!
# Adding a promo code to a checkout and taking it off again

`checkout/utils.py`. A promo code is the code of a voucher or of a gift card, and the voucher is
looked for first. The code of a voucher is written on the checkout as a text, next to the name and the
amount of the discount; a gift card is attached to the checkout.

When a code is to be removed, the text on the checkout is not looked at. The voucher of the checkout
is asked for `Voucher.code`, which is left over from when a voucher had one code and now is the last
of its codes in their ordering: the one that was created first. So of the codes of a voucher just this
one can be taken off again.

What a voucher is worth for a checkout is a parameter, which may also refuse.

## Main definitions

* `Checkout`, `CheckoutInfo`, `Db`
* `addPromoCodeToCheckout`, `removePromoCodeFromCheckout`, `fetchCheckoutInfo`
* `RoundTrip` — the removal undoes the application

## Main results

* `code_eq_some_iff` — which code `Voucher.code` is
* `roundTrip_iff`
-/

namespace Aixinwu

namespace PromoCodes

open Checkout

/-! ### The rows -/

/-- `giftcard.models.GiftCard`, as far as it can be used on a checkout. -/
structure GiftCard where
  pk : ℕ
  code : String
  isActive : Bool := true
  expiryDate : Option ℕ := none
  currency : String
deriving DecidableEq, Repr

instance : HasPk GiftCard ℕ := ⟨GiftCard.pk⟩

/-- `GiftCardQueryset.active`. -/
def GiftCard.active (today : ℕ) (g : GiftCard) : Bool :=
  g.isActive && g.expiryDate.all (today ≤ ·)

/-- `checkout.models.Checkout`, with the gift cards that are attached to it. -/
structure Checkout where
  row : CheckoutRow
  discountName : Option String := none
  translatedDiscountName : Option String := none
  discountAmount : ℚ := 0
  giftCards : Finset ℕ := ∅
deriving DecidableEq

/-- `checkout.fetch.CheckoutInfo`. -/
structure CheckoutInfo where
  checkout : Checkout
  channelSlug : String
  channelCurrency : String
  voucher : Option Voucher := none
  voucherCode : Option VoucherCode := none
deriving DecidableEq

/-- The tables. `createdAt` is a column of the codes, `name` and `translatedName` are the name of a
voucher and its translation in the language of the checkout. -/
structure Db where
  tables : CheckoutDb
  createdAt : ℕ → Time
  name : ℕ → Option String
  translatedName : ℕ → Option String
  giftCards : Table GiftCard
  giftCards_unique : (giftCards.rows.map (·.code)).Nodup

/-- What is raised. -/
inductive Failure where
  | notApplicable
  | voucherNotApplicable
  | invalidPromoCode
  | doesNotExist
  | multipleObjectsReturned
  | valueError
deriving DecidableEq, Repr

variable (db : Db)

/-! ### The code of a voucher -/

/-- `VoucherCode.Meta.ordering`, `("-created_at", "code")`: `c` does not come after `d`. -/
def codeOrder (c d : VoucherCode) : Bool :=
  decide (db.createdAt d.id < db.createdAt c.id) ||
    (decide (db.createdAt c.id = db.createdAt d.id) && decide (c.code ≤ d.code))

/-- `voucher.codes`. -/
def codesOf (voucher : ℕ) : List VoucherCode :=
  (db.tables.codes.rows.filter (·.voucher = voucher)).insertionSort fun c d => codeOrder db c d = true

/-- `Voucher.code`. -/
def code (v : Voucher) : Option String := (codesOf db v.pk).getLast?.map (·.code)

/-! ### Promo codes -/

/-- `promo_code_is_voucher`. -/
def promoCodeIsVoucher (code : String) : Bool := db.tables.codes.rows.any (·.code = code)

/-- `promo_code_is_gift_card`. -/
def promoCodeIsGiftCard (code : String) : Bool := db.giftCards.rows.any (·.code = code)

/-- `get_voucher_code_instance`. -/
def getVoucherCodeInstance (now : Time) (voucherCode channelSlug : String) :
    Except Failure VoucherCode :=
  if db.tables.vouchers.rows.any fun v =>
      db.tables.voucherActiveInChannel now channelSlug v &&
        db.tables.codes.rows.any fun c => c.code = voucherCode && c.voucher = v.pk && c.isActive then
    match db.tables.codes.get (·.code = voucherCode) with
    | .ok code => .ok code
    | .error .doesNotExist => .error .doesNotExist
    | .error .multipleObjectsReturned => .error .multipleObjectsReturned
  else .error .invalidPromoCode

variable (getVoucherDiscountForCheckout : Voucher → CheckoutInfo → Except Failure ℚ)

/-- `add_voucher_to_checkout`. -/
def addVoucherToCheckout (info : CheckoutInfo) (voucher : Voucher) (voucherCode : VoucherCode) :
    Except Failure CheckoutInfo :=
  match getVoucherDiscountForCheckout voucher info with
  | .error e => .error e
  | .ok discount =>
    let translatedDiscountName := db.translatedName voucher.pk
    .ok
      { info with
        checkout :=
          { info.checkout with
            row := { info.checkout.row with voucherCode := some voucherCode.code }
            discountName := db.name voucher.pk
            translatedDiscountName :=
              if translatedDiscountName ≠ db.name voucher.pk then translatedDiscountName else some ""
            discountAmount := discount }
        voucher := some voucher
        voucherCode := some voucherCode }

/-- `add_voucher_code_to_checkout`. -/
def addVoucherCodeToCheckout (now : Time) (info : CheckoutInfo) (voucherCode : String) :
    Except Failure CheckoutInfo :=
  match getVoucherCodeInstance db now voucherCode info.channelSlug with
  | .error e => .error e
  | .ok codeInstance =>
    match db.tables.vouchers.find? codeInstance.voucher with
    | none => .error .doesNotExist
    | some voucher =>
      match addVoucherToCheckout db getVoucherDiscountForCheckout info voucher codeInstance with
      | .error .notApplicable => .error .voucherNotApplicable
      | r => r

/-- `add_gift_card_code_to_checkout`. -/
def addGiftCardCodeToCheckout (today : ℕ) (checkout : Checkout) (promoCode currency : String) :
    Except Failure Checkout :=
  match db.giftCards.get fun g => g.active today && g.currency = currency && g.code = promoCode with
  | .ok giftCard => .ok { checkout with giftCards := insert giftCard.pk checkout.giftCards }
  | .error .doesNotExist => .error .invalidPromoCode
  | .error .multipleObjectsReturned => .error .multipleObjectsReturned

/-- `add_promo_code_to_checkout`. -/
def addPromoCodeToCheckout (now : Time) (today : ℕ) (info : CheckoutInfo) (promoCode : String) :
    Except Failure CheckoutInfo :=
  if promoCodeIsVoucher db promoCode then
    addVoucherCodeToCheckout db getVoucherDiscountForCheckout now info promoCode
  else if promoCodeIsGiftCard db promoCode then
    match addGiftCardCodeToCheckout db today info.checkout promoCode info.channelCurrency with
    | .error e => .error e
    | .ok checkout => .ok { info with checkout := checkout }
  else .error .invalidPromoCode

/-- `remove_voucher_from_checkout`. -/
def removeVoucherFromCheckout (checkout : Checkout) : Checkout :=
  { checkout with
    row := { checkout.row with voucherCode := none }
    discountName := none
    translatedDiscountName := none
    discountAmount := 0 }

/-- `remove_voucher_code_from_checkout`. -/
def removeVoucherCodeFromCheckout (info : CheckoutInfo) (voucherCode : String) :
    Bool × CheckoutInfo :=
  match info.voucher with
  | some existingVoucher =>
    if code db existingVoucher = some voucherCode then
      (true, { info with checkout := removeVoucherFromCheckout info.checkout, voucher := none })
    else (false, info)
  | none => (false, info)

/-- `remove_gift_card_code_from_checkout`. -/
def removeGiftCardCodeFromCheckout (checkout : Checkout) (giftCardCode : String) :
    Bool × Checkout :=
  match db.giftCards.rows.find? fun g => g.pk ∈ checkout.giftCards && g.code = giftCardCode with
  | some giftCard => (true, { checkout with giftCards := checkout.giftCards.erase giftCard.pk })
  | none => (false, checkout)

/-- `remove_promo_code_from_checkout`. -/
def removePromoCodeFromCheckout (info : CheckoutInfo) (promoCode : String) : Bool × CheckoutInfo :=
  if promoCodeIsVoucher db promoCode then removeVoucherCodeFromCheckout db info promoCode
  else if promoCodeIsGiftCard db promoCode then
    let removed := removeGiftCardCodeFromCheckout db info.checkout promoCode
    (removed.1, { info with checkout := removed.2 })
  else (false, info)

/-- `get_voucher_for_checkout`, without a lock. -/
def getVoucherForCheckout (now : Time) (checkout : Checkout) (channelSlug : String) :
    Except Failure (Option (Voucher × VoucherCode)) :=
  match checkout.row.voucherCode with
  | none => .ok none
  | some voucherCode =>
    match db.tables.codes.get fun c => c.code = voucherCode && c.isActive with
    | .error .doesNotExist => .ok none
    | .error .multipleObjectsReturned => .error .multipleObjectsReturned
    | .ok code =>
      .ok ((db.tables.vouchers.rows.find? fun v =>
        db.tables.voucherActiveInChannel now channelSlug v && v.pk = code.voucher).map (·, code))

/-- `fetch_checkout_info`, of the checkout that an info is about. -/
def fetchCheckoutInfo (now : Time) (info : CheckoutInfo) : Except Failure CheckoutInfo :=
  match getVoucherForCheckout db now info.checkout info.channelSlug with
  | .error e => .error e
  | .ok found => .ok { info with voucher := found.map (·.1), voucherCode := found.map (·.2) }

/-! ### What a round trip is -/

/-- The code `c` of a voucher is taken off the checkout, and no other code of the voucher is. -/
structure Undoes (info : CheckoutInfo) (c : VoucherCode) : Prop where
  removed : (removePromoCodeFromCheckout db info c.code).1 = true
  cleared : (removePromoCodeFromCheckout db info c.code).2.checkout
    = removeVoucherFromCheckout info.checkout
  kept : ∀ d ∈ db.tables.codes, d.voucher = c.voucher → d.code ≠ c.code →
    removePromoCodeFromCheckout db info d.code = (false, info)

/-- The gift card `g` is detached from a checkout that had the cards `before` attached, and the code of
a card that is not attached changes nothing. -/
structure Detaches (before : Checkout) (info : CheckoutInfo) (g : GiftCard) : Prop where
  removed : (removePromoCodeFromCheckout db info g.code).1 = true
  restored : (removePromoCodeFromCheckout db info g.code).2.checkout
    = { before with giftCards := before.giftCards.erase g.pk }
  kept : ∀ h ∈ db.giftCards, h.pk ∉ info.checkout.giftCards →
    promoCodeIsVoucher db h.code = false →
      removePromoCodeFromCheckout db info h.code = (false, info)

/-- **The removal undoes the application**, with the info that the application left and with one that
is fetched `later`: of a voucher's code, or of a gift card's where no voucher has the code. -/
structure RoundTrip (later : Time) (before left : CheckoutInfo) (promoCode : String) : Prop where
  voucherLeft : ∀ c ∈ db.tables.codes, c.code = promoCode → Undoes db left c
  voucherFetched : ∀ c ∈ db.tables.codes, c.code = promoCode →
    ∃ info, fetchCheckoutInfo db later left = .ok info ∧ Undoes db info c
  cardLeft : promoCodeIsVoucher db promoCode = false → ∀ g ∈ db.giftCards, g.code = promoCode →
    Detaches db before.checkout left g
  cardFetched : promoCodeIsVoucher db promoCode = false → ∀ g ∈ db.giftCards, g.code = promoCode →
    ∃ info, fetchCheckoutInfo db later left = .ok info ∧ Detaches db before.checkout info g

/-- No code of the same voucher was created before `c`; of those that were created at the same time it
is the greatest. -/
def CreatedFirst (c : VoucherCode) : Prop :=
  ∀ d ∈ db.tables.codes, d.voucher = c.voucher →
    db.createdAt c.id < db.createdAt d.id ∨
      (db.createdAt d.id = db.createdAt c.id ∧ d.code ≤ c.code)

/-- The voucher of a code is valid in the channel. -/
def VoucherValid (now : Time) (channelSlug : String) (c : VoucherCode) : Prop :=
  ∃ v ∈ db.tables.vouchers, v.pk = c.voucher ∧
    db.tables.voucherActiveInChannel now channelSlug v = true

variable {db}

/-! ### The code that `Voucher.code` is -/

theorem codeOrder_iff {c d : VoucherCode} :
    codeOrder db c d = true ↔ db.createdAt d.id < db.createdAt c.id ∨
      (db.createdAt c.id = db.createdAt d.id ∧ c.code ≤ d.code) := by
  rw [codeOrder, Bool.or_eq_true, Bool.and_eq_true, decide_eq_true_iff, decide_eq_true_iff,
    decide_eq_true_iff]

theorem codeOrder_total (c d : VoucherCode) : codeOrder db c d = true ∨ codeOrder db d c = true := by
  rw [codeOrder_iff, codeOrder_iff]
  rcases lt_trichotomy (db.createdAt c.id) (db.createdAt d.id) with hlt | heq | hgt
  · exact .inr (.inl hlt)
  · rcases le_total c.code d.code with hle | hle
    · exact .inl (.inr ⟨heq, hle⟩)
    · exact .inr (.inr ⟨heq.symm, hle⟩)
  · exact .inl (.inl hgt)

theorem codeOrder_trans {c d e : VoucherCode} (hcd : codeOrder db c d = true)
    (hde : codeOrder db d e = true) : codeOrder db c e = true := by
  rw [codeOrder_iff] at hcd hde ⊢
  rcases hcd with hlt | ⟨heq, hle⟩
  · rcases hde with hlt' | ⟨heq', -⟩
    · exact .inl (lt_trans hlt' hlt)
    · exact .inl (heq' ▸ hlt)
  · rcases hde with hlt' | ⟨heq', hle'⟩
    · exact .inl (heq ▸ hlt')
    · exact .inr ⟨heq.trans heq', le_trans hle hle'⟩

theorem mem_codesOf {voucher : ℕ} {c : VoucherCode} :
    c ∈ codesOf db voucher ↔ c ∈ db.tables.codes ∧ c.voucher = voucher := by
  rw [codesOf, List.mem_insertionSort, List.mem_filter, decide_eq_true_iff]
  exact Iff.rfl

/-- In a sorted list nothing comes after the last. -/
theorem rel_getLast {α : Type} {r : α → α → Prop} (hrefl : ∀ a, r a a) {l : List α} {z : α}
    (hsorted : l.Pairwise r) (hz : l.getLast? = some z) : ∀ a ∈ l, r a z := by
  obtain ⟨front, rfl⟩ := List.getLast?_eq_some_iff.mp hz
  intro a ha
  rcases List.mem_append.mp ha with hfront | hlast
  · exact (List.pairwise_append.mp hsorted).2.2 a hfront z List.mem_cons_self
  · obtain rfl := List.mem_singleton.mp hlast
    exact hrefl a

/-- **`Voucher.code` is the code that was created first.** -/
theorem code_eq_some_iff {c : VoucherCode} (hc : c ∈ db.tables.codes) {v : Voucher}
    (hv : v.pk = c.voucher) : code db v = some c.code ↔ CreatedFirst db c := by
  have hmem : c ∈ codesOf db v.pk := mem_codesOf.mpr ⟨hc, hv.symm⟩
  obtain ⟨z, hz⟩ : ∃ z, (codesOf db v.pk).getLast? = some z :=
    Option.ne_none_iff_exists'.mp fun hnone =>
      List.ne_nil_of_mem hmem (List.getLast?_eq_none_iff.mp hnone)
  have hzmem := mem_codesOf.mp (List.mem_of_getLast? hz)
  have hlast : ∀ d ∈ codesOf db v.pk, codeOrder db d z = true := by
    have : Std.Total fun c d : VoucherCode => codeOrder db c d = true := ⟨codeOrder_total⟩
    have : IsTrans VoucherCode fun c d => codeOrder db c d = true := ⟨fun _ _ _ => codeOrder_trans⟩
    exact rel_getLast (fun a => (codeOrder_total a a).elim id id)
      (List.pairwise_insertionSort _ _) hz
  rw [code, hz, Option.map_some, Option.some_inj]
  constructor
  · intro hcode d hd hvoucher
    obtain rfl := code_eq_of_code_eq hzmem.1 hc hcode
    exact codeOrder_iff.mp (hlast d (mem_codesOf.mpr ⟨hd, hvoucher.trans hv.symm⟩))
  · intro hfirst
    have hcz := codeOrder_iff.mp (hlast c hmem)
    rcases hfirst z hzmem.1 (hzmem.2.trans hv) with hlt | ⟨heq, hle⟩
    · rcases hcz with hgt | ⟨heq, -⟩
      · exact absurd hlt hgt.asymm
      · exact absurd heq hlt.ne
    · rcases hcz with hgt | ⟨-, hge⟩
      · exact absurd heq hgt.ne
      · exact le_antisymm hle hge

/-! ### Codes of vouchers -/

theorem promoCodeIsVoucher_of_mem {c : VoucherCode} (hc : c ∈ db.tables.codes) :
    promoCodeIsVoucher db c.code = true :=
  List.any_eq_true.mpr ⟨c, hc, decide_eq_true rfl⟩

theorem removePromoCode_of_mem {c : VoucherCode} (hc : c ∈ db.tables.codes) (info : CheckoutInfo) :
    removePromoCodeFromCheckout db info c.code = removeVoucherCodeFromCheckout db info c.code := by
  rw [removePromoCodeFromCheckout, if_pos (promoCodeIsVoucher_of_mem hc)]

/-- **The code that was applied can be taken off** if it is the voucher's own `code`. -/
theorem undoes_iff {c : VoucherCode} (hc : c ∈ db.tables.codes) {info : CheckoutInfo} {v : Voucher}
    (hinfo : info.voucher = some v) (hv : v.pk = c.voucher) :
    Undoes db info c ↔ CreatedFirst db c := by
  have hremove : ∀ s, removeVoucherCodeFromCheckout db info s = if code db v = some s then
      (true, { info with checkout := removeVoucherFromCheckout info.checkout, voucher := none })
      else (false, info) := by
    intro s
    rw [removeVoucherCodeFromCheckout, hinfo]
  rw [← code_eq_some_iff hc hv]
  constructor
  · intro h
    have hremoved := h.removed
    rw [removePromoCode_of_mem hc, hremove] at hremoved
    by_contra hcode
    rw [if_neg hcode] at hremoved
    cases hremoved
  · intro hcode
    have hself : removePromoCodeFromCheckout db info c.code
        = (true, { info with checkout := removeVoucherFromCheckout info.checkout, voucher := none }) := by
      rw [removePromoCode_of_mem hc, hremove, if_pos hcode]
    refine ⟨by rw [hself], by rw [hself], fun d hd _ hne => ?_⟩
    rw [removePromoCode_of_mem hd, hremove, if_neg]
    intro hd'
    exact hne (Option.some.inj (hd'.symm.trans hcode))

theorem not_undoes_of_none {c : VoucherCode} (hc : c ∈ db.tables.codes) {info : CheckoutInfo}
    (hinfo : info.voucher = none) : ¬ Undoes db info c := by
  intro h
  have hremoved := h.removed
  rw [removePromoCode_of_mem hc, removeVoucherCodeFromCheckout, hinfo] at hremoved
  cases hremoved

/-- Fetching does not fail and reads the checkout as it is. -/
theorem fetchCheckoutInfo_ok (later : Time) (info : CheckoutInfo) :
    ∃ fetched, fetchCheckoutInfo db later info = .ok fetched ∧
      fetched.checkout = info.checkout := by
  rw [fetchCheckoutInfo, getVoucherForCheckout]
  rcases hcode : info.checkout.row.voucherCode with _ | s
  · exact ⟨_, rfl, rfl⟩
  rcases get_code_cases db.tables s (·.isActive) with ⟨c, -, -, -, hget⟩ | hget
  · simp only [hget]
    exact ⟨_, rfl, rfl⟩
  · simp only [hget]
    exact ⟨_, rfl, rfl⟩

/-- What is fetched for a checkout with an active code on it: the voucher, if it is valid. -/
theorem fetchCheckoutInfo_eq {c : VoucherCode} (hc : c ∈ db.tables.codes) (hactive : c.isActive = true)
    {info : CheckoutInfo} (hinfo : info.checkout.row.voucherCode = some c.code) (later : Time) :
    ∃ found, fetchCheckoutInfo db later info
        = .ok { info with voucher := found, voucherCode := found.map fun _ => c } ∧
      found = db.tables.vouchers.rows.find? fun v =>
        db.tables.voucherActiveInChannel later info.channelSlug v && v.pk = c.voucher := by
  have hget : db.tables.codes.get (fun d => d.code = c.code && d.isActive) = .ok c := by
    refine Table.get_eq_ok.mpr ⟨hc, by simp [hactive], fun d hd hd' => ?_⟩
    have hcode : d.code = c.code := by simpa using (Bool.and_eq_true_iff.mp hd').1
    exact code_eq_of_code_eq hd hc hcode
  refine ⟨_, ?_, rfl⟩
  rw [fetchCheckoutInfo, getVoucherForCheckout, hinfo]
  simp only [hget, Option.map_map]
  congr 2
  exact Option.map_id'

/-- An application of a voucher's code that succeeds puts the voucher on the info and the code on the
checkout. -/
theorem of_addVoucherCode {discountFor : Voucher → CheckoutInfo → Except Failure ℚ} {now : Time}
    {info left : CheckoutInfo} {s : String}
    (h : addVoucherCodeToCheckout db discountFor now info s = .ok left) :
    ∃ c ∈ db.tables.codes, c.code = s ∧ c.isActive = true ∧
      (∃ v, v.pk = c.voucher ∧ left.voucher = some v) ∧
      left.checkout.row.voucherCode = some c.code ∧ left.channelSlug = info.channelSlug := by
  rw [addVoucherCodeToCheckout, getVoucherCodeInstance] at h
  split_ifs at h with hvalid
  · obtain ⟨w, -, hw⟩ := List.any_eq_true.mp hvalid
    obtain ⟨d, hd, hd'⟩ := List.any_eq_true.mp (Bool.and_eq_true_iff.mp hw).2
    rw [Bool.and_eq_true, Bool.and_eq_true, decide_eq_true_iff, decide_eq_true_iff] at hd'
    have hget : db.tables.codes.get (·.code = s) = .ok d := by
      refine Table.get_eq_ok.mpr ⟨hd, by simp [hd'.1.1], fun e he he' => ?_⟩
      have hcode : e.code = d.code := (of_decide_eq_true he').trans hd'.1.1.symm
      exact code_eq_of_code_eq he hd hcode
    simp only [hget] at h
    rcases hfind : db.tables.vouchers.find? d.voucher with _ | v
    · rw [hfind] at h
      cases h
    rw [hfind] at h
    obtain ⟨-, hpk⟩ := Table.find?_eq_some.mp hfind
    rw [pk_voucher] at hpk
    simp only [addVoucherToCheckout] at h
    rcases hdiscount : discountFor v info with e | discount
    · rw [hdiscount] at h
      cases e <;> cases h
    · rw [hdiscount] at h
      obtain rfl := Except.ok.inj h
      exact ⟨d, hd, hd'.1.1, hd'.2, ⟨v, hpk, rfl⟩, rfl, rfl⟩

/-! ### Codes of gift cards -/

theorem gift_card_eq_of_code_eq {g h : GiftCard} (hg : g ∈ db.giftCards) (hh : h ∈ db.giftCards)
    (heq : g.code = h.code) : g = h :=
  List.inj_on_of_nodup_map db.giftCards_unique hg hh heq

/-- **A gift card that was attached is detached again**, and nothing else is. -/
theorem detaches {before : Checkout} {info : CheckoutInfo} {g : GiftCard} (hg : g ∈ db.giftCards)
    (hvoucher : promoCodeIsVoucher db g.code = false)
    (hinfo : info.checkout = { before with giftCards := insert g.pk before.giftCards }) :
    Detaches db before info g := by
  have hremove : ∀ h ∈ db.giftCards, promoCodeIsVoucher db h.code = false →
      removePromoCodeFromCheckout db info h.code
        = ((removeGiftCardCodeFromCheckout db info.checkout h.code).1,
          { info with checkout := (removeGiftCardCodeFromCheckout db info.checkout h.code).2 }) := by
    intro h hh hnot
    have hgift : promoCodeIsGiftCard db h.code = true :=
      List.any_eq_true.mpr ⟨h, hh, decide_eq_true rfl⟩
    rw [removePromoCodeFromCheckout, hnot, hgift]
    rfl
  have hfind : (db.giftCards.rows.find? fun h =>
      h.pk ∈ info.checkout.giftCards && h.code = g.code) = some g := by
    rcases hfound : db.giftCards.rows.find? fun h =>
      h.pk ∈ info.checkout.giftCards && h.code = g.code with _ | h
    · have hno := List.find?_eq_none.mp hfound g hg
      simp [hinfo] at hno
    · have hp := List.find?_some hfound
      rw [Bool.and_eq_true, decide_eq_true_iff, decide_eq_true_iff] at hp
      exact hfound.trans
        (congrArg some (gift_card_eq_of_code_eq (List.mem_of_find?_eq_some hfound) hg hp.2))
  have hself := hremove g hg hvoucher
  rw [removeGiftCardCodeFromCheckout, hfind] at hself
  refine ⟨by rw [hself], ?_, fun h hh hnot hnotVoucher => ?_⟩
  · rw [hself, hinfo]
    simp only [Finset.erase_insert_eq_erase]
  · have hnone : (db.giftCards.rows.find? fun e =>
        e.pk ∈ info.checkout.giftCards && e.code = h.code) = none := by
      refine List.find?_eq_none.mpr fun e he he' => ?_
      rw [Bool.and_eq_true, decide_eq_true_iff, decide_eq_true_iff] at he'
      rw [gift_card_eq_of_code_eq he hh he'.2] at he'
      exact hnot he'.1
    rw [hremove h hh hnotVoucher, removeGiftCardCodeFromCheckout, hnone]

/-- An application of a gift card's code that succeeds attaches the card. -/
theorem of_addGiftCardCode {today : ℕ} {checkout left : Checkout} {s currency : String}
    (h : addGiftCardCodeToCheckout db today checkout s currency = .ok left) {g : GiftCard}
    (hg : g ∈ db.giftCards) (hcode : g.code = s) :
    left = { checkout with giftCards := insert g.pk checkout.giftCards } := by
  rw [addGiftCardCodeToCheckout] at h
  rcases hget : db.giftCards.get fun g => g.active today && g.currency = currency && g.code = s
    with e | g'
  · rw [hget] at h
    cases e <;> cases h
  · rw [hget] at h
    obtain ⟨hg', hp, -⟩ := Table.get_eq_ok.mp hget
    have hcode' : g'.code = s := by simpa using (Bool.and_eq_true_iff.mp hp).2
    obtain rfl := gift_card_eq_of_code_eq hg hg' (hcode.trans hcode'.symm)
    exact (Except.ok.inj h).symm

/-! ### The round trip -/

/-- **The removal undoes the application** of a promo code just if it is the code of a gift card, or of
all the codes of the voucher the one that was created first, and the voucher is still valid when it is
fetched. -/
theorem roundTrip_iff {discountFor : Voucher → CheckoutInfo → Except Failure ℚ} {now later : Time}
    {today : ℕ} {info left : CheckoutInfo} {promoCode : String}
    (h : addPromoCodeToCheckout db discountFor now today info promoCode = .ok left) :
    RoundTrip db later info left promoCode ↔
      ∀ c ∈ db.tables.codes, c.code = promoCode →
        CreatedFirst db c ∧ VoucherValid db later info.channelSlug c := by
  rw [addPromoCodeToCheckout] at h
  split_ifs at h with hvoucher hgift
  · obtain ⟨c, hc, hcode, hactive, ⟨v, hv, hleft⟩, hrow, hslug⟩ := of_addVoucherCode h
    obtain ⟨found, hfetch, hfound⟩ := fetchCheckoutInfo_eq hc hactive hrow later
    have hcard : ¬ promoCodeIsVoucher db promoCode = false := by
      rw [hvoucher]
      exact Bool.noConfusion
    have hunique : ∀ d ∈ db.tables.codes, d.code = promoCode → d = c :=
      fun d hd hd' => code_eq_of_code_eq hd hc (hd'.trans hcode.symm)
    have happlied : RoundTrip db later info left promoCode ↔ Undoes db left c ∧
        Undoes db { left with voucher := found, voucherCode := found.map fun _ => c } c := by
      constructor
      · intro hround
        obtain ⟨fetched, hfetched, hundoes⟩ := hround.voucherFetched c hc hcode
        obtain rfl := Except.ok.inj (hfetch.symm.trans hfetched)
        exact ⟨hround.voucherLeft c hc hcode, hundoes⟩
      · rintro ⟨hleft, hfetched⟩
        refine ⟨fun d hd hd' => ?_, fun d hd hd' => ?_, fun hnot => absurd hnot hcard,
          fun hnot => absurd hnot hcard⟩
        · rwa [hunique d hd hd']
        · rw [hunique d hd hd']
          exact ⟨_, hfetch, hfetched⟩
    have hcondition : (∀ d ∈ db.tables.codes, d.code = promoCode →
        CreatedFirst db d ∧ VoucherValid db later info.channelSlug d) ↔
          CreatedFirst db c ∧ VoucherValid db later info.channelSlug c := by
      refine ⟨fun hall => hall c hc hcode, fun hself d hd hd' => ?_⟩
      rwa [hunique d hd hd']
    rw [happlied, hcondition, undoes_iff hc hleft hv]
    refine and_congr_right fun hfirst => ?_
    rcases found with _ | w
    · refine iff_of_false (not_undoes_of_none hc rfl) ?_
      rintro ⟨w, hw, hpk, hactive⟩
      have hno := List.find?_eq_none.mp hfound.symm w hw
      rw [hslug, hactive, hpk] at hno
      simp at hno
    · have hw := List.find?_some hfound.symm
      rw [Bool.and_eq_true, decide_eq_true_iff] at hw
      have hpk : w.pk = c.voucher := hw.2
      refine iff_of_true ((undoes_iff hc rfl hpk).mpr hfirst)
        ⟨w, List.mem_of_find?_eq_some hfound.symm, hpk, ?_⟩
      rw [← hslug]
      exact hw.1
  · rcases hadd : addGiftCardCodeToCheckout db today info.checkout promoCode info.channelCurrency
      with e | checkout
    · rw [hadd] at h
      cases h
    rw [hadd] at h
    obtain rfl := Except.ok.inj h
    have hnone : ∀ c ∈ db.tables.codes, c.code ≠ promoCode := by
      rintro c hc rfl
      exact hvoucher (promoCodeIsVoucher_of_mem hc)
    have hcard : ∀ g ∈ db.giftCards, g.code = promoCode →
        checkout = { info.checkout with giftCards := insert g.pk info.checkout.giftCards } :=
      fun g hg hcode => of_addGiftCardCode hadd hg hcode
    refine ⟨fun _ c hc hcode => absurd hcode (hnone c hc), fun _ => ⟨?_, ?_, ?_, ?_⟩⟩
    · exact fun c hc hcode => absurd hcode (hnone c hc)
    · exact fun c hc hcode => absurd hcode (hnone c hc)
    · rintro hnot g hg rfl
      exact detaches hg hnot (hcard g hg rfl)
    · rintro hnot g hg rfl
      obtain ⟨fetched, hfetch, hsame⟩ := fetchCheckoutInfo_ok later { info with checkout := checkout }
      exact ⟨fetched, hfetch, detaches hg hnot (hsame.trans (hcard g hg rfl))⟩

/-- A voucher with two codes, of which the first is older. -/
def twoCodes : Db where
  tables :=
    { channels := [⟨1, "shop", true⟩]
      vouchers := Table.singleton { pk := 1, startDate := 0 }
      channelListings := [{ voucher := 1, channel := 1 }]
      codes := ⟨[⟨1, "OLD", 0, true, 1⟩, ⟨2, "NEW", 0, true, 1⟩], by decide⟩
      codes_unique := by decide
      customers := []
      checkouts := []
      orders := [] }
  createdAt id := id
  name _ := some "Spring"
  translatedName _ := none
  giftCards := Table.empty
  giftCards_unique := List.nodup_nil

/-- A checkout without a promo code. -/
def plainInfo : CheckoutInfo where
  checkout := { row := { token := "a" } }
  channelSlug := "shop"
  channelCurrency := "CNY"

/-- The info that the application of a code of `twoCodes` leaves, with 5 off. -/
def appliedInfo (c : VoucherCode) : CheckoutInfo :=
  { plainInfo with
    checkout :=
      { row := { token := "a", voucherCode := some c.code }
        discountName := some "Spring"
        discountAmount := 5 }
    voucher := some { pk := 1, startDate := 0 }
    voucherCode := some c }

/-- **The newer of two codes is accepted and cannot be taken off.** -/
theorem roundTrip_not_always :
    ¬ ∀ (db : Db) (discountFor : Voucher → CheckoutInfo → Except Failure ℚ) (now : Time) (today : ℕ)
      (info left : CheckoutInfo) (promoCode : String),
      addPromoCodeToCheckout db discountFor now today info promoCode = .ok left →
        RoundTrip db now info left promoCode := by
  intro h
  have hround := h twoCodes (fun _ _ => .ok 5) 5 0 plainInfo (appliedInfo ⟨2, "NEW", 0, true, 1⟩) "NEW"
    (by rfl)
  have hremoved := (hround.voucherLeft ⟨2, "NEW", 0, true, 1⟩
    (List.mem_cons_of_mem _ List.mem_cons_self) rfl).removed
  revert hremoved
  decide

/-- The codes of `twoCodes`. -/
theorem mem_twoCodes {c : VoucherCode} (hc : c ∈ twoCodes.tables.codes) :
    c = ⟨1, "OLD", 0, true, 1⟩ ∨ c = ⟨2, "NEW", 0, true, 1⟩ := by
  have hrows : c ∈ twoCodes.tables.codes.rows := hc
  rcases List.mem_cons.mp hrows with hold | hrest
  · exact .inl hold
  · exact .inr (List.mem_singleton.mp hrest)

/-- The older one can. -/
theorem roundTrip_old :
    RoundTrip twoCodes 6 plainInfo (appliedInfo ⟨1, "OLD", 0, true, 1⟩) "OLD" := by
  refine (@roundTrip_iff twoCodes (fun _ _ => .ok 5) 5 6 0 plainInfo _ "OLD" (by rfl)).mpr ?_
  intro c hc hcode
  rcases mem_twoCodes hc with rfl | rfl
  · refine ⟨fun d hd _ => ?_, { pk := 1, startDate := 0 }, List.mem_cons_self, rfl, by decide⟩
    rcases mem_twoCodes hd with rfl | rfl
    · exact .inr ⟨rfl, le_rfl⟩
    · exact .inl (by decide)
  · exact absurd hcode (by decide)

end PromoCodes

end Aixinwu
