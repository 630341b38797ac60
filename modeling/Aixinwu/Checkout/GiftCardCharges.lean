import Aixinwu.Checkout.GiftCards
import Aixinwu.Lib.Table

/-!
# Which gift cards an order uses, and what is recorded

`add_gift_cards_to_order` goes through the cards of a checkout with the price that is left. A card
that holds more pays the rest, any other pays what it holds; once nothing is left, the cards that
follow are passed over. What is written at the end are the cards that were used, their links to the
order, and one event for each with the balance it had before.

A card's turn comes with a certain price left, and all that happens to it depends on that price
alone. So the run of the loop is first turned into the list of the turns, and everything else is
read off that list.

## Main definitions

* `Db`, `Charging`, `chargeCard`, `addGiftCardsToOrder`
* `turns` — the cards that are used, each with the price left at its turn
* `PaysInOrder`

## Main results

* `foldl_chargeCard` — what the loop collects
* `mem_turns_iff`, `exhausted_of_mem_turns` — whose turn comes
* `paysInOrder_addGiftCardsToOrder`
-/

namespace Aixinwu

namespace Checkout

namespace GiftCardCharges

instance : HasPk GiftCard ℕ := ⟨GiftCard.pk⟩

@[simp] theorem pk_giftCard (g : GiftCard) : HasPk.pk g = g.pk := rfl

/-- `giftcard.models.GiftCardEvent` of the type `USED_IN_ORDER`, with the balances among its
parameters. -/
structure GiftCardEvent where
  giftCard : ℕ
  user : Option ℕ
  app : Option ℕ
  order : ℕ
  currentBalance : ℚ
  oldCurrentBalance : ℚ
deriving DecidableEq, Repr

/-- The tables; `orderGiftCards` are the rows of `Order.gift_cards`. -/
structure Db where
  giftCards : Table GiftCard
  orderGiftCards : List (ℕ × ℕ) := []
  events : List GiftCardEvent := []

/-- The arguments other than the price, and the time. -/
structure Use where
  order : ℕ
  usedBy : Option ℕ := none
  usedByEmail : String := ""
  user : Option ℕ := none
  app : Option ℕ := none
  now : Time := 0
deriving DecidableEq, Repr

/-- The local variables of `add_gift_cards_to_order`. -/
structure Charging where
  totalPriceLeft : ℚ
  orderGiftCards : List ℕ := []
  giftCardsToUpdate : List GiftCard := []
  balanceData : List (GiftCard × ℚ) := []

variable (use : Use)

/-- The body of the loop. A card in `balance_data` is the instance that is changed, so it is there
as it is afterwards, next to the balance it had before. -/
def chargeCard (st : Charging) (giftCard : GiftCard) : Charging :=
  if 0 < st.totalPriceLeft then
    let (charged, totalPriceLeft) := updateGiftCardBalance giftCard st.totalPriceLeft
    let charged := charged.setUser use.usedBy use.usedByEmail use.now
    { totalPriceLeft
      orderGiftCards := st.orderGiftCards ++ [giftCard.pk]
      giftCardsToUpdate := st.giftCardsToUpdate ++ [charged]
      balanceData := st.balanceData ++ [(charged, giftCard.currentBalanceAmount)] }
  else st

/-- The fields of the `bulk_update`. -/
def setFields (m r : GiftCard) : GiftCard :=
  { r with
    currentBalanceAmount := m.currentBalanceAmount
    balance_nonneg := m.balance_nonneg
    lastUsedOn := m.lastUsedOn
    usedBy := m.usedBy
    usedByEmail := m.usedByEmail }

/-- An event of `gift_cards_used_in_order_event`. -/
def usedInOrderEvent (data : GiftCard × ℚ) : GiftCardEvent where
  giftCard := data.1.pk
  user := use.user
  app := use.app
  order := use.order
  currentBalance := data.1.currentBalanceAmount
  oldCurrentBalance := data.2

/-- `add_gift_cards_to_order`, with the cards in the order in which they are read. -/
def addGiftCardsToOrder (totalPriceLeft : ℚ) (db : Db) (cards : db.giftCards.Queryset) : Db :=
  let st := cards.rows.foldl (chargeCard use) { totalPriceLeft }
  { giftCards := db.giftCards.bulkUpdate st.giftCardsToUpdate setFields fun _ _ => rfl
    orderGiftCards := db.orderGiftCards ++
      (st.orderGiftCards.map fun card => (use.order, card)).filter (!db.orderGiftCards.contains ·)
    events := db.events ++ st.balanceData.map (usedInOrderEvent use) }

/-- The balance of a card. -/
def Db.balanceOf (db : Db) (card : ℕ) : ℚ :=
  ((db.giftCards.find? card).map (·.currentBalanceAmount)).getD 0

/-- An order of the price `p` is paid with the cards, one after the other; `used` are the cards that
the order gets, `events` the events that are written. -/
structure PaysInOrder (p : ℚ) (cards : List GiftCard) (db' : Db) (used : List ℕ)
    (events : List GiftCardEvent) : Prop where
  sum_eq : (cards.map fun g => g.currentBalanceAmount - db'.balanceOf g.pk).sum
    = min p (balance cards)
  nonneg : ∀ g ∈ cards, 0 ≤ db'.balanceOf g.pk
  used_iff : ∀ before g rest, cards = before ++ g :: rest → (g.pk ∈ used ↔ balance before < p)
  exhausts : ∀ before g rest, cards = before ++ g :: rest → g.pk ∈ used →
    ∀ b ∈ before, db'.balanceOf b.pk = 0
  unused : ∀ g ∈ cards, g.pk ∉ used → db'.balanceOf g.pk = g.currentBalanceAmount
  records : events.map (fun e => (e.giftCard, e.oldCurrentBalance))
    = (cards.filter (·.pk ∈ used)).map fun g => (g.pk, g.currentBalanceAmount)

/-! ### The turns -/

/-- The cards that are used, each with the price that is left when its turn comes. -/
def turns : ℚ → List GiftCard → List (GiftCard × ℚ)
  | _, [] => []
  | left, g :: cards =>
    if 0 < left then (g, left) :: turns (left - min left g.currentBalanceAmount) cards else []

/-- A card after its turn. -/
def charge (turn : GiftCard × ℚ) : GiftCard :=
  (updateGiftCardBalance turn.1 turn.2).1.setUser use.usedBy use.usedByEmail use.now

variable {use}

@[simp] theorem pk_charge (turn : GiftCard × ℚ) : (charge use turn).pk = turn.1.pk := by
  rw [charge, updateGiftCardBalance]
  split <;> rfl

theorem balance_charge (turn : GiftCard × ℚ) :
    (charge use turn).currentBalanceAmount
      = turn.1.currentBalanceAmount - min turn.2 turn.1.currentBalanceAmount :=
  (updateGiftCardBalance_balance turn.1 turn.2).1

/-- Nothing happens once nothing is left. -/
theorem foldl_chargeCard_of_nonpos {st : Charging} (h : st.totalPriceLeft ≤ 0)
    (cards : List GiftCard) : cards.foldl (chargeCard use) st = st := by
  induction cards with
  | nil => rfl
  | cons g cards ih => rw [List.foldl_cons, chargeCard, if_neg (not_lt.mpr h), ih]

/-- **What the loop collects** is what the turns come to. -/
theorem foldl_chargeCard (st : Charging) (cards : List GiftCard) :
    (cards.foldl (chargeCard use) st).orderGiftCards
        = st.orderGiftCards ++ (turns st.totalPriceLeft cards).map (·.1.pk)
      ∧ (cards.foldl (chargeCard use) st).giftCardsToUpdate
        = st.giftCardsToUpdate ++ (turns st.totalPriceLeft cards).map (charge use)
      ∧ (cards.foldl (chargeCard use) st).balanceData
        = st.balanceData ++ (turns st.totalPriceLeft cards).map fun turn =>
            (charge use turn, turn.1.currentBalanceAmount) := by
  induction cards generalizing st with
  | nil => simp [turns]
  | cons g cards ih =>
    by_cases h : 0 < st.totalPriceLeft
    · have hleft : (updateGiftCardBalance g st.totalPriceLeft).2
          = st.totalPriceLeft - min st.totalPriceLeft g.currentBalanceAmount :=
        (updateGiftCardBalance_balance g st.totalPriceLeft).2
      obtain ⟨horder, hupdate, hdata⟩ := ih (chargeCard use st g)
      rw [List.foldl_cons, horder, hupdate, hdata, chargeCard, if_pos h, turns, if_pos h]
      simp only [hleft, charge, List.map_cons, List.append_assoc, List.singleton_append, and_self]
    · rw [foldl_chargeCard_of_nonpos (not_lt.mp h), turns, if_neg h]
      simp

/-- The cards that are used stand at the beginning. -/
theorem turns_prefix (left : ℚ) (cards : List GiftCard) :
    ∃ rest, cards = (turns left cards).map (·.1) ++ rest := by
  induction cards generalizing left with
  | nil => exact ⟨[], rfl⟩
  | cons g cards ih =>
    rw [turns]
    split
    · obtain ⟨rest, hrest⟩ := ih (left - min left g.currentBalanceAmount)
      exact ⟨rest, congrArg (g :: ·) hrest⟩
    · exact ⟨g :: cards, rfl⟩

/-- **A card is used** where the cards before it do not cover the price. -/
theorem mem_turns_iff {left : ℚ} {before rest : List GiftCard} {g : GiftCard}
    (hnodup : ((before ++ g :: rest).map (·.pk)).Nodup) :
    g.pk ∈ (turns left (before ++ g :: rest)).map (·.1.pk) ↔ balance before < left := by
  induction before generalizing left with
  | nil =>
    rw [List.nil_append, turns, balance_nil]
    split
    · rename_i hpos
      exact iff_of_true List.mem_cons_self hpos
    · rename_i hneg
      exact iff_of_false List.not_mem_nil hneg
  | cons b before ih =>
    rw [List.cons_append, List.map_cons, List.nodup_cons] at hnodup
    have hb := b.balance_nonneg
    have hbefore := balance_nonneg before
    have hne : g.pk ≠ b.pk := by
      intro h
      refine hnodup.1 (h ▸ ?_)
      exact List.mem_map_of_mem (List.mem_append_right before List.mem_cons_self)
    rw [List.cons_append, turns, balance_cons]
    split
    · rw [List.map_cons, List.mem_cons, or_iff_right hne, ih hnodup.2]
      rcases le_total left b.currentBalanceAmount with hle | hle
      · rw [min_eq_left hle]
        constructor <;> intro h <;> linarith
      · rw [min_eq_right hle]
        constructor <;> intro h <;> linarith
    · rename_i hneg
      exact iff_of_false List.not_mem_nil fun h => hneg (by linarith)

/-- **The cards before a card that is used** are exhausted. -/
theorem exhausted_of_balance_lt {left : ℚ} {before : List GiftCard} (rest : List GiftCard)
    (g : GiftCard) (h : balance before < left) {b : GiftCard} (hb : b ∈ before) :
    ∃ turn ∈ turns left (before ++ g :: rest),
      turn.1 = b ∧ b.currentBalanceAmount ≤ turn.2 := by
  induction before generalizing left with
  | nil => cases hb
  | cons c before ih =>
    have hc := c.balance_nonneg
    have hbefore := balance_nonneg before
    rw [balance_cons] at h
    have hle : c.currentBalanceAmount ≤ left := by linarith
    rw [List.cons_append, turns, if_pos (by linarith), min_eq_right hle]
    rcases List.mem_cons.mp hb with rfl | hb
    · exact ⟨_, List.mem_cons_self, rfl, hle⟩
    · have hlt : balance before < left - c.currentBalanceAmount := by linarith
      obtain ⟨turn, hturn, heq⟩ := ih hlt hb
      exact ⟨turn, List.mem_cons_of_mem _ hturn, heq⟩

/-- Together the turns take the price, as far as the cards have it. -/
theorem sum_turns {left : ℚ} (h : 0 ≤ left) (cards : List GiftCard) :
    ((turns left cards).map fun turn => min turn.2 turn.1.currentBalanceAmount).sum
      = min left (balance cards) := by
  induction cards generalizing left with
  | nil => rw [turns, balance_nil, min_eq_right h]; rfl
  | cons g cards ih =>
    have hg := g.balance_nonneg
    have hcards := balance_nonneg cards
    rw [turns, balance_cons]
    split
    · rw [List.map_cons, List.sum_cons]
      rcases le_total left g.currentBalanceAmount with hle | hle
      · rw [min_eq_left hle, sub_self, ih le_rfl, min_eq_left hcards, min_eq_left (by linarith),
          add_zero]
      · rw [min_eq_right hle, ih (sub_nonneg.mpr hle), ← min_add_add_left, add_sub_cancel]
    · rename_i hneg
      rw [le_antisymm (not_lt.mp hneg) h, min_eq_left (add_nonneg hg hcards)]
      rfl

/-! ### The cards afterwards -/

theorem balanceOf_of_mem {db : Db} {g : GiftCard} (h : g ∈ db.giftCards) :
    db.balanceOf g.pk = g.currentBalanceAmount := by
  rw [Db.balanceOf, ← pk_giftCard, Table.mem_iff_find?.mp h]
  rfl

variable {db : Db} {cards : db.giftCards.Queryset} {p : ℚ}

theorem giftCards_addGiftCardsToOrder :
    (addGiftCardsToOrder use p db cards).giftCards
      = db.giftCards.bulkUpdate ((turns p cards.rows).map (charge use)) setFields fun _ _ => rfl := by
  rw [addGiftCardsToOrder]
  simp only [(foldl_chargeCard { totalPriceLeft := p } cards.rows).2.1, List.nil_append]

theorem nodup_turns (cards : db.giftCards.Queryset) (left : ℚ) :
    ((turns left cards.rows).map (·.1.pk)).Nodup := by
  obtain ⟨rest, hrest⟩ := turns_prefix left cards.rows
  have hnodup : (cards.rows.map (·.pk)).Nodup := cards.nodup
  rw [hrest, List.map_append, List.map_map] at hnodup
  exact hnodup.of_append_left

theorem mem_cards_of_mem_turns {turn : GiftCard × ℚ} (h : turn ∈ turns p cards.rows) :
    turn.1 ∈ cards.rows := by
  obtain ⟨rest, hrest⟩ := turns_prefix p cards.rows
  rw [hrest]
  exact List.mem_append_left rest (List.mem_map_of_mem h)

theorem mem_giftCards_addGiftCardsToOrder {g : GiftCard} :
    g ∈ (addGiftCardsToOrder use p db cards).giftCards ↔
      (∃ r ∈ db.giftCards, ∃ m ∈ (turns p cards.rows).map (charge use), m.pk = r.pk ∧
        setFields m r = g) ∨
      g ∈ db.giftCards ∧ ∀ m ∈ (turns p cards.rows).map (charge use), m.pk ≠ g.pk := by
  rw [giftCards_addGiftCardsToOrder]
  refine Table.mem_bulkUpdate _ fun m hm m' hm' hpk => ?_
  refine List.inj_on_of_nodup_map (f := HasPk.pk) ?_ hm hm' hpk
  have hpks : ((turns p cards.rows).map (charge use)).map HasPk.pk
      = (turns p cards.rows).map (·.1.pk) := by
    rw [List.map_map]
    exact List.map_congr_left fun turn _ => pk_charge turn
  rw [hpks]
  exact nodup_turns cards p

theorem balanceOf_turn {turn : GiftCard × ℚ} (h : turn ∈ turns p cards.rows) :
    (addGiftCardsToOrder use p db cards).balanceOf turn.1.pk
      = turn.1.currentBalanceAmount - min turn.2 turn.1.currentBalanceAmount := by
  have hmem : setFields (charge use turn) turn.1 ∈ (addGiftCardsToOrder use p db cards).giftCards :=
    mem_giftCards_addGiftCardsToOrder.mpr (Or.inl ⟨turn.1,
      cards.mem _ (mem_cards_of_mem_turns h), _, List.mem_map_of_mem h, pk_charge turn, rfl⟩)
  calc (addGiftCardsToOrder use p db cards).balanceOf turn.1.pk
      = (setFields (charge use turn) turn.1).currentBalanceAmount := balanceOf_of_mem hmem
    _ = (charge use turn).currentBalanceAmount := rfl
    _ = turn.1.currentBalanceAmount - min turn.2 turn.1.currentBalanceAmount := balance_charge turn

theorem balanceOf_not_used {g : GiftCard} (hg : g ∈ cards.rows)
    (h : g.pk ∉ (turns p cards.rows).map (·.1.pk)) :
    (addGiftCardsToOrder use p db cards).balanceOf g.pk = g.currentBalanceAmount := by
  refine balanceOf_of_mem (mem_giftCards_addGiftCardsToOrder.mpr (Or.inr ⟨cards.mem g hg, ?_⟩))
  intro m hm hpk
  obtain ⟨turn, hturn, rfl⟩ := List.mem_map.mp hm
  exact h (List.mem_map.mpr ⟨turn, hturn, by rw [← hpk, pk_charge]⟩)

/-- What is taken off all cards is what the turns take. -/
theorem sum_taken (use : Use) (p : ℚ) (cards : db.giftCards.Queryset) :
    (cards.rows.map fun g => g.currentBalanceAmount
        - (addGiftCardsToOrder use p db cards).balanceOf g.pk).sum
      = ((turns p cards.rows).map fun turn => min turn.2 turn.1.currentBalanceAmount).sum := by
  obtain ⟨rest, hrest⟩ := turns_prefix p cards.rows
  have hnodup : (cards.rows.map (·.pk)).Nodup := cards.nodup
  rw [hrest, List.map_append, List.map_map, List.nodup_append'] at hnodup
  have hunused : (rest.map fun g => g.currentBalanceAmount
      - (addGiftCardsToOrder use p db cards).balanceOf g.pk) = rest.map fun _ => 0 := by
    refine List.map_congr_left fun g hg => ?_
    have hcard : g ∈ cards.rows := hrest ▸ List.mem_append_right _ hg
    rw [balanceOf_not_used hcard, sub_self]
    exact fun hused => hnodup.2.2 hused (List.mem_map_of_mem hg)
  have hused : ((turns p cards.rows).map (·.1)).map (fun g => g.currentBalanceAmount
        - (addGiftCardsToOrder use p db cards).balanceOf g.pk)
      = (turns p cards.rows).map fun turn => min turn.2 turn.1.currentBalanceAmount := by
    rw [List.map_map]
    refine List.map_congr_left fun turn hturn => ?_
    rw [Function.comp_apply, balanceOf_turn hturn, sub_sub_cancel]
  calc (cards.rows.map fun g => g.currentBalanceAmount
          - (addGiftCardsToOrder use p db cards).balanceOf g.pk).sum
      = (((turns p cards.rows).map (·.1) ++ rest).map fun g => g.currentBalanceAmount
          - (addGiftCardsToOrder use p db cards).balanceOf g.pk).sum := by rw [← hrest]
    _ = ((turns p cards.rows).map fun turn => min turn.2 turn.1.currentBalanceAmount).sum := by
      rw [List.map_append, List.sum_append, hused, hunused, List.sum_map_zero, add_zero]

/-- The cards that are used are those that had a turn, as they were before. -/
theorem filter_used (cards : db.giftCards.Queryset) (p : ℚ) :
    cards.rows.filter (fun g => g.pk ∈ (turns p cards.rows).map (·.1.pk))
      = (turns p cards.rows).map (·.1) := by
  obtain ⟨rest, hrest⟩ := turns_prefix p cards.rows
  have hnodup : (cards.rows.map (·.pk)).Nodup := cards.nodup
  rw [hrest, List.map_append, List.map_map, List.nodup_append'] at hnodup
  have hused : ((turns p cards.rows).map (·.1)).filter
        (fun g => g.pk ∈ (turns p cards.rows).map (·.1.pk))
      = (turns p cards.rows).map (·.1) := by
    refine List.filter_eq_self.mpr fun g hg => decide_eq_true ?_
    obtain ⟨turn, hturn, rfl⟩ := List.mem_map.mp hg
    exact List.mem_map_of_mem (f := fun turn : GiftCard × ℚ => turn.1.pk) hturn
  have hunused : rest.filter (fun g => g.pk ∈ (turns p cards.rows).map (·.1.pk)) = [] := by
    refine List.filter_eq_nil_iff.mpr fun g hg hmem => ?_
    exact hnodup.2.2 (of_decide_eq_true hmem) (List.mem_map_of_mem hg)
  calc cards.rows.filter (fun g => g.pk ∈ (turns p cards.rows).map (·.1.pk))
      = ((turns p cards.rows).map (·.1) ++ rest).filter
          (fun g => g.pk ∈ (turns p cards.rows).map (·.1.pk)) := by rw [← hrest]
    _ = (turns p cards.rows).map (·.1) := by
      rw [List.filter_append, hused, hunused, List.append_nil]

/-- **The cards of a checkout pay an order one after the other**: the events that are written and the
cards that are linked to the order are those of the cards that paid. -/
theorem paysInOrder_addGiftCardsToOrder (use : Use) {p : ℚ} (hp : 0 ≤ p) (db : Db)
    (cards : db.giftCards.Queryset) :
    ∃ used events,
      (addGiftCardsToOrder use p db cards).events = db.events ++ events ∧
      (∀ card, (use.order, card) ∈ (addGiftCardsToOrder use p db cards).orderGiftCards ↔
        (use.order, card) ∈ db.orderGiftCards ∨ card ∈ used) ∧
      PaysInOrder p cards.rows (addGiftCardsToOrder use p db cards) used events := by
  obtain ⟨horder, -, hdata⟩ := @foldl_chargeCard use { totalPriceLeft := p } cards.rows
  refine ⟨(turns p cards.rows).map (·.1.pk),
    ((turns p cards.rows).map fun turn => (charge use turn, turn.1.currentBalanceAmount)).map
      (usedInOrderEvent use), ?_, ?_, ?_⟩
  · rw [addGiftCardsToOrder]
    simp only [hdata, List.nil_append]
  · intro card
    rw [addGiftCardsToOrder]
    simp only [horder, List.nil_append, List.mem_append, List.mem_filter, List.mem_map,
      Bool.not_eq_true', List.contains_eq_mem, decide_eq_false_iff_not]
    constructor
    · rintro (h | ⟨⟨c, hc, heq⟩, -⟩)
      · exact Or.inl h
      · exact Or.inr ((Prod.mk.inj heq).2 ▸ hc)
    · rintro (h | h)
      · exact Or.inl h
      · by_cases hold : (use.order, card) ∈ db.orderGiftCards
        · exact Or.inl hold
        · exact Or.inr ⟨⟨card, h, rfl⟩, hold⟩
  · have hnodup : (cards.rows.map (·.pk)).Nodup := cards.nodup
    have hused : ∀ before g rest, cards.rows = before ++ g :: rest →
        (g.pk ∈ (turns p cards.rows).map (·.1.pk) ↔ balance before < p) := by
      intro before g rest hcards
      rw [hcards] at hnodup ⊢
      exact mem_turns_iff hnodup
    refine ⟨(sum_taken use p cards).trans (sum_turns hp cards.rows), ?_, hused, ?_,
      fun g hg h => balanceOf_not_used hg h, ?_⟩
    · intro g hg
      by_cases h : g.pk ∈ (turns p cards.rows).map (·.1.pk)
      · obtain ⟨turn, hturn, hpk⟩ := List.mem_map.mp h
        rw [← hpk, balanceOf_turn hturn]
        exact sub_nonneg.mpr (min_le_right _ _)
      · rw [balanceOf_not_used hg h]
        exact g.balance_nonneg
    · intro before g rest hcards hg b hb
      have hlt := (hused before g rest hcards).mp hg
      obtain ⟨turn, hturn, rfl, hle⟩ := exhausted_of_balance_lt rest g hlt hb
      rw [← hcards] at hturn
      rw [balanceOf_turn hturn, min_eq_right hle, sub_self]
    · rw [filter_used, List.map_map, List.map_map, List.map_map]
      refine List.map_congr_left fun turn _ => ?_
      exact Prod.ext (@pk_charge use turn) rfl

/-- A card of 30 and a card of 50. -/
def twoCards : Db where
  giftCards :=
    ⟨[{ pk := 1, currentBalanceAmount := 30, balance_nonneg := by norm_num },
      { pk := 2, currentBalanceAmount := 50, balance_nonneg := by norm_num }], by decide⟩

/-- Both cards, in this order. -/
def bothCards : twoCards.giftCards.Queryset where
  rows := twoCards.giftCards.rows
  mem := fun _ h => h
  nodup := twoCards.giftCards.nodup

/-- The first card is exhausted, the second pays 10. -/
theorem paysInOrder_bothCards :
    ∃ used events,
      (addGiftCardsToOrder { order := 7 } 40 twoCards bothCards).events = [] ++ events ∧
      (∀ card, (7, card) ∈ (addGiftCardsToOrder { order := 7 } 40 twoCards bothCards).orderGiftCards
        ↔ (7, card) ∈ twoCards.orderGiftCards ∨ card ∈ used) ∧
      PaysInOrder 40 bothCards.rows (addGiftCardsToOrder { order := 7 } 40 twoCards bothCards) used
        events :=
  paysInOrder_addGiftCardsToOrder { order := 7 } (by norm_num) twoCards bothCards

end GiftCardCharges

end Checkout

end Aixinwu
