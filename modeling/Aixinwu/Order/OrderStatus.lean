import Aixinwu.Order.Fulfillments
import Aixinwu.Order.Models

/-!
# The status of an order

`update_order_status` decides by three sums: the items that were not replaced, those of them that are
in a fulfillment, and those that were returned. As what is returned or replaced is in a fulfillment,
and what is in a fulfillment was ordered, line by line, comparing the sums is as good as comparing the
lines.

Orders of shared channels are leased where others are fulfilled. Whether a channel is shared is asked
of its slug by `find("shared") > 0`, and that is false also where the slug starts with it.

## Main definitions

* `calculateQuantityIncludingReturns`, `statusOf`, `updateOrderStatus`
* `itemsIn` — the items of a line in the fulfillments of some statuses
* `CountsItems`, `FollowsItems`

## Main results

* `find_pos_iff` — when `find` comes to more than zero
* `calculateQuantity_eq` — the sums, line by line
* `followsItems_iff`
-/

namespace Aixinwu

namespace Fulfillments

/-! ### The code -/

/-- `order.models.Order`, with its status. -/
structure OrderRow extends Order where
  status : OrderStatus
deriving DecidableEq, Repr

/-- `order.lines.all()`. -/
def Db.orderLinesOf (db : Db) (order : ℕ) : List OrderLine :=
  db.orderLines.rows.filter (·.order = order)

/-- `order.fulfillments.all()`. -/
def Db.fulfillmentsOf (db : Db) (order : ℕ) : List Fulfillment :=
  db.fulfillments.rows.filter (·.order = order)

/-- `fulfillment.get_total_quantity()`. -/
def getTotalQuantity (db : Db) (fulfillment : Fulfillment) : ℤ :=
  ((db.linesOf fulfillment.pk).map (·.quantity)).sum

/-- The statuses of what was returned. -/
def isReturned (status : FulfillmentStatus) : Bool :=
  status ∈ [FulfillmentStatus.returned, .refundedAndReturned]

/-- A fulfillment in the loop: the returned and the replaced quantity. -/
def countFulfillment (db : Db) (counted : ℤ × ℤ) (fulfillment : Fulfillment) : ℤ × ℤ :=
  if isReturned fulfillment.status then
    (counted.1 + getTotalQuantity db fulfillment, counted.2)
  else if fulfillment.status = .replaced then
    (counted.1, counted.2 + getTotalQuantity db fulfillment)
  else counted

/-- `_calculate_quantity_including_returns`. -/
def calculateQuantityIncludingReturns (db : Db) (order : ℕ) : ℤ × ℤ × ℤ :=
  let lines := db.orderLinesOf order
  let totalQuantity := (lines.map (·.quantity)).sum
  let quantityFulfilled := (lines.map (·.quantityFulfilled)).sum
  let (quantityReturned, quantityReplaced) :=
    (db.fulfillmentsOf order).foldl (countFulfillment db) (0, 0)
  (totalQuantity - quantityReplaced, quantityFulfilled - quantityReplaced, quantityReturned)

/-- `order.fulfillments.filter(status=WAITING_FOR_APPROVAL).exists()`. -/
def awaitingApproval (db : Db) (order : ℕ) : Bool :=
  (db.fulfillmentsOf order).any (·.status = .waitingForApproval)

/-- The status that `update_order_status` decides on. -/
def statusOf (db : Db) (order : OrderRow) : OrderStatus :=
  let (totalQuantity, quantityFulfilled, quantityReturned) :=
    calculateQuantityIncludingReturns db order.pk
  if find order.channelSlug.toList "shared".toList > 0 then
    if totalQuantity = 0 then order.status
    else if quantityFulfilled ≤ 0 then .unfulfilled
    else if quantityReturned = totalQuantity then .returned
    else if quantityFulfilled < totalQuantity ∨ awaitingApproval db order.pk then
      .partiallyFulfilled
    else .leased
  else
    if totalQuantity = 0 then order.status
    else if quantityFulfilled ≤ 0 then .unfulfilled
    else if 0 < quantityReturned ∧ quantityReturned < totalQuantity then .partiallyReturned
    else if quantityReturned = totalQuantity then .returned
    else if quantityFulfilled < totalQuantity ∨ awaitingApproval db order.pk then
      .partiallyFulfilled
    else .fulfilled

/-- `update_order_status`: the order, and whether it has been saved. -/
def updateOrderStatus (db : Db) (order : OrderRow) : OrderRow × Bool :=
  if statusOf db order ≠ order.status then ({ order with status := statusOf db order }, true)
  else (order, false)

/-! ### Finding a word -/

/-- **`find` comes to more than zero** if the word is there, but not at the start. -/
theorem find_pos_iff {text sub : List Char} : 0 < find text sub ↔ sub <:+: text ∧ ¬ sub <+: text := by
  cases text with
  | nil =>
    have hfind : ¬ 0 < find [] sub := by
      cases sub <;> simp [find]
    simp [hfind]
  | cons c text =>
    by_cases hstart : sub <+: c :: text
    · have hfind : find (c :: text) sub = 0 := by
        simp [find, List.findIdx?_cons, List.isPrefixOf_iff_prefix.mpr hstart]
      simp [hfind, hstart]
    · have hlater : (text.tails.findIdx? (sub.isPrefixOf ·)).isSome = true ↔ sub <:+: text := by
        rw [List.findIdx?_isSome, List.any_eq_true, List.infix_iff_prefix_suffix]
        refine exists_congr fun tail => ?_
        rw [List.mem_tails, List.isPrefixOf_iff_prefix, and_comm]
      have hfind : find (c :: text) sub
          = (text.tails.findIdx? (sub.isPrefixOf ·)).elim (-1) fun i => (i : ℤ) + 1 := by
        have hnot : sub.isPrefixOf (c :: text) = false := by
          rw [← Bool.not_eq_true, List.isPrefixOf_iff_prefix]
          exact hstart
        rw [find, List.tails_cons, List.findIdx?_cons, hnot]
        cases text.tails.findIdx? (sub.isPrefixOf ·) <;> simp
      rw [hfind, List.infix_cons_iff, or_iff_right hstart, ← hlater]
      cases text.tails.findIdx? (sub.isPrefixOf ·) with
      | none => simp
      | some i =>
        simp only [Option.elim_some, Option.isSome_some, hstart, not_false_eq_true, and_true, iff_true]
        omega

/-! ### The sums, line by line -/

/-- The items of a line that are in those fulfillments of an order whose status is of a kind. -/
def itemsIn (db : Db) (order : ℕ) (kind : FulfillmentStatus → Bool) (line : ℕ) : ℤ :=
  sumIf (fun fulfillment => kind fulfillment.status)
    (fun fulfillment => sumIf (fun l => l.orderLine = line) (·.quantity) (db.linesOf fulfillment.pk))
    (db.fulfillmentsOf order)

/-- What the tables say of an order: its lines count the items in fulfillments that are not canceled,
these are at most the items ordered, and its fulfillments hold its own lines. -/
structure CountsItems (db : Db) (order : ℕ) : Prop where
  counted : ∀ l ∈ db.orderLinesOf order,
    l.quantityFulfilled = itemsIn db order (fun status => status ≠ .canceled) l.pk
  bounded : ∀ l ∈ db.orderLinesOf order, 0 ≤ l.quantityFulfilled ∧ l.quantityFulfilled ≤ l.quantity
  own : ∀ f ∈ db.fulfillmentsOf order, ∀ fl ∈ db.linesOf f.pk,
    ∃ l ∈ db.orderLinesOf order, l.pk = fl.orderLine

variable {db : Db} {order : ℕ}

theorem linesOf_nonneg (f : ℕ) : ∀ l ∈ db.linesOf f, 0 ≤ l.quantity :=
  fun l hl => db.fulfillmentLines.quantity_nonneg l (List.mem_of_mem_filter hl)

theorem itemsIn_nonneg (kind : FulfillmentStatus → Bool) (line : ℕ) :
    0 ≤ itemsIn db order kind line :=
  sumIf_nonneg fun f _ => sumIf_nonneg (linesOf_nonneg f.pk)

/-- What was returned and what was replaced is in a fulfillment. -/
theorem itemsIn_returned_add_replaced_le (line : ℕ) :
    itemsIn db order isReturned line + itemsIn db order (· = .replaced) line
      ≤ itemsIn db order (fun status => status ≠ .canceled) line := by
  rw [itemsIn, itemsIn, ← sumIf_or]
  · refine sumIf_le_sumIf (fun f _ hf => ?_) fun f _ => sumIf_nonneg (linesOf_nonneg f.pk)
    cases hstatus : f.status <;> simp_all [isReturned]
  · intro f _ hreturned hreplaced
    cases hstatus : f.status <;> simp_all [isReturned]

/-- Adding up the lines of an order gives the fulfillments. -/
theorem sum_itemsIn (hown : ∀ f ∈ db.fulfillmentsOf order, ∀ fl ∈ db.linesOf f.pk,
    ∃ l ∈ db.orderLinesOf order, l.pk = fl.orderLine) (kind : FulfillmentStatus → Bool) :
    ((db.orderLinesOf order).map fun l => itemsIn db order kind l.pk).sum =
      sumIf (fun f => kind f.status) (getTotalQuantity db) (db.fulfillmentsOf order) := by
  have hnodup : ((db.orderLinesOf order).map (·.pk)).Nodup :=
    (List.filter_sublist.map _).nodup db.orderLines.nodup
  -- one fulfillment
  have hone : ∀ f ∈ db.fulfillmentsOf order, ((db.orderLinesOf order).map fun l =>
      sumIf (fun fl => fl.orderLine = l.pk) (·.quantity) (db.linesOf f.pk)).sum
        = getTotalQuantity db f := by
    intro f hf
    have hkeys := sum_sumIf_key FulfillmentLine.orderLine FulfillmentLine.quantity hnodup
      (db.linesOf f.pk)
    rw [List.map_map] at hkeys
    refine hkeys.trans (sumIf_of_forall fun fl hfl => decide_eq_true ?_)
    obtain ⟨l, hl, hpk⟩ := hown f hf fl hfl
    exact hpk ▸ List.mem_map_of_mem hl
  simp only [itemsIn]
  generalize db.fulfillmentsOf order = fulfillments at hone ⊢
  induction fulfillments with
  | nil => simp
  | cons f fulfillments ih =>
    have hrest := ih fun g hg => hone g (List.mem_cons_of_mem f hg)
    simp only [sumIf_cons]
    rw [List.sum_map_add, hrest]
    congr 1
    split
    · exact hone f List.mem_cons_self
    · simp

theorem foldl_countFulfillment (fulfillments : List Fulfillment) (counted : ℤ × ℤ) :
    fulfillments.foldl (countFulfillment db) counted =
      (counted.1 + sumIf (fun f => isReturned f.status) (getTotalQuantity db) fulfillments,
        counted.2 + sumIf (fun f => f.status = .replaced) (getTotalQuantity db) fulfillments) := by
  induction fulfillments generalizing counted with
  | nil => simp
  | cons f fulfillments ih =>
    rw [List.foldl_cons, ih, sumIf_cons, sumIf_cons, countFulfillment]
    cases hstatus : f.status <;> simp [isReturned, add_assoc]

/-- **The three sums**, over the lines of the order. -/
theorem calculateQuantity_eq (h : CountsItems db order) :
    calculateQuantityIncludingReturns db order =
      (((db.orderLinesOf order).map fun l =>
          l.quantity - itemsIn db order (· = .replaced) l.pk).sum,
        ((db.orderLinesOf order).map fun l =>
          l.quantityFulfilled - itemsIn db order (· = .replaced) l.pk).sum,
        ((db.orderLinesOf order).map fun l => itemsIn db order isReturned l.pk).sum) := by
  have hsub : ∀ f : OrderLine → ℤ, ((db.orderLinesOf order).map fun l =>
      f l - itemsIn db order (· = .replaced) l.pk).sum = ((db.orderLinesOf order).map f).sum
        - sumIf (fun f => f.status = .replaced) (getTotalQuantity db) (db.fulfillmentsOf order) := by
    intro f
    rw [← sum_itemsIn h.own fun status => decide (status = .replaced), eq_sub_iff_add_eq,
      ← List.sum_map_add]
    simp
  rw [calculateQuantityIncludingReturns, foldl_countFulfillment, hsub, hsub, sum_itemsIn h.own]
  simp

/-! ### What the status says -/

/-- The slug of a shared channel. -/
def IsShared (slug : String) : Prop := "shared".toList <:+: slug.toList

/-- All items that were not replaced are in fulfillments. -/
def AllFulfilled (db : Db) (order : ℕ) : Prop :=
  ∀ l ∈ db.orderLinesOf order, l.quantityFulfilled - itemsIn db order (· = .replaced) l.pk
    = l.quantity - itemsIn db order (· = .replaced) l.pk

/-- No item that was not replaced is in a fulfillment. -/
def NoneFulfilled (db : Db) (order : ℕ) : Prop :=
  ∀ l ∈ db.orderLinesOf order,
    l.quantityFulfilled - itemsIn db order (· = .replaced) l.pk = 0

/-- All items that were not replaced were returned. -/
def AllReturned (db : Db) (order : ℕ) : Prop :=
  ∀ l ∈ db.orderLinesOf order, itemsIn db order isReturned l.pk
    = l.quantity - itemsIn db order (· = .replaced) l.pk

/-- No item was returned. -/
def NoneReturned (db : Db) (order : ℕ) : Prop :=
  ∀ l ∈ db.orderLinesOf order, itemsIn db order isReturned l.pk = 0

/-- No fulfillment awaits approval. -/
def NoneAwaitsApproval (db : Db) (order : ℕ) : Prop :=
  ∀ f ∈ db.fulfillmentsOf order, f.status ≠ .waitingForApproval

/-- The status that `update_order_status` leaves follows the items. -/
structure FollowsItems (db : Db) (order : OrderRow) : Prop where
  fulfilled : (updateOrderStatus db order).1.status = .fulfilled → ¬ IsShared order.channelSlug ∧
    AllFulfilled db order.pk ∧ NoneAwaitsApproval db order.pk ∧ NoneReturned db order.pk
  leased : (updateOrderStatus db order).1.status = .leased → IsShared order.channelSlug ∧
    AllFulfilled db order.pk ∧ NoneAwaitsApproval db order.pk
  returned : (updateOrderStatus db order).1.status = .returned ↔ AllReturned db order.pk
  unfulfilled : (updateOrderStatus db order).1.status = .unfulfilled ↔ NoneFulfilled db order.pk
  again : updateOrderStatus db (updateOrderStatus db order).1 = ((updateOrderStatus db order).1, false)

/-- What the sums tell, in an order with an item that was not replaced. -/
structure Sums (db : Db) (order : ℕ) (total fulfilled returned : ℤ) : Prop where
  pos : 0 < total
  returned_nonneg : 0 ≤ returned
  returned_le : returned ≤ fulfilled
  fulfilled_le : fulfilled ≤ total
  allFulfilled : fulfilled = total ↔ AllFulfilled db order
  noneFulfilled : fulfilled = 0 ↔ NoneFulfilled db order
  allReturned : returned = total ↔ AllReturned db order
  noneReturned : returned = 0 ↔ NoneReturned db order

/-- **Comparing the sums** is comparing the lines. -/
theorem CountsItems.sums (h : CountsItems db order)
    (hleft : ∃ l ∈ db.orderLinesOf order, itemsIn db order (· = .replaced) l.pk < l.quantity) :
    Sums db order (calculateQuantityIncludingReturns db order).1
      (calculateQuantityIncludingReturns db order).2.1
      (calculateQuantityIncludingReturns db order).2.2 := by
  have hline : ∀ l ∈ db.orderLinesOf order,
      0 ≤ itemsIn db order isReturned l.pk ∧
      itemsIn db order isReturned l.pk
        ≤ l.quantityFulfilled - itemsIn db order (· = .replaced) l.pk ∧
      l.quantityFulfilled - itemsIn db order (· = .replaced) l.pk
        ≤ l.quantity - itemsIn db order (· = .replaced) l.pk := by
    intro l hl
    have hreturned : itemsIn db order isReturned l.pk + itemsIn db order (· = .replaced) l.pk ≤ _ :=
      itemsIn_returned_add_replaced_le l.pk
    rw [← h.counted l hl] at hreturned
    have hbounded := h.bounded l hl
    exact ⟨itemsIn_nonneg _ _, by omega, by omega⟩
  have hzero : ((db.orderLinesOf order).map fun _ => (0 : ℤ)).sum = 0 := by simp
  rw [calculateQuantity_eq h]
  refine ⟨?_, ?_, ?_, ?_, ?_, ?_, ?_, ?_⟩
  · obtain ⟨l, hl, hlt⟩ := hleft
    refine (Int.sub_pos.mpr hlt).trans_le ?_
    refine List.single_le_sum (fun x hx => ?_) _ (List.mem_map_of_mem hl)
    obtain ⟨l, hl, rfl⟩ := List.mem_map.mp hx
    have hline := hline l hl
    omega
  · exact hzero ▸ List.sum_le_sum fun l hl => (hline l hl).1
  · exact List.sum_le_sum fun l hl => (hline l hl).2.1
  · exact List.sum_le_sum fun l hl => (hline l hl).2.2
  · exact sum_map_eq_iff_of_le fun l hl => (hline l hl).2.2
  · have heq := sum_map_eq_iff_of_le fun l hl => (hline l hl).1.trans (hline l hl).2.1
    rw [hzero, eq_comm] at heq
    exact heq.trans (forall₂_congr fun l _ => eq_comm)
  · exact sum_map_eq_iff_of_le fun l hl => (hline l hl).2.1.trans (hline l hl).2.2
  · have heq := sum_map_eq_iff_of_le fun l hl => (hline l hl).1
    rw [hzero, eq_comm] at heq
    exact heq.trans (forall₂_congr fun l _ => eq_comm)

theorem awaitingApproval_eq_false : awaitingApproval db order = false ↔ NoneAwaitsApproval db order := by
  simp [awaitingApproval, NoneAwaitsApproval]

/-! ### The two chains -/

variable {row : OrderRow} {total fulfilled returned : ℤ}

/-- **What each status stands for.** -/
theorem statusOf_iff (hsums : calculateQuantityIncludingReturns db row.pk = (total, fulfilled, returned))
    (h : Sums db row.pk total fulfilled returned) :
    (statusOf db row = .unfulfilled ↔ fulfilled = 0) ∧
    (statusOf db row = .returned ↔ returned = total) ∧
    (statusOf db row = .leased ↔ 0 < find row.channelSlug.toList "shared".toList ∧
      fulfilled = total ∧ awaitingApproval db row.pk = false ∧ returned ≠ total) ∧
    (statusOf db row = .fulfilled ↔ ¬ 0 < find row.channelSlug.toList "shared".toList ∧
      fulfilled = total ∧ awaitingApproval db row.pk = false ∧ returned = 0) := by
  have hpos := h.pos
  have hnonneg := h.returned_nonneg
  have hreturned := h.returned_le
  have hfulfilled := h.fulfilled_le
  have hne : total ≠ 0 := hpos.ne'
  have hwait : awaitingApproval db row.pk ≠ true ↔ awaitingApproval db row.pk = false := by simp
  simp only [statusOf, hsums, if_neg hne, gt_iff_lt]
  refine ⟨?_, ?_, ?_, ?_⟩
  · split_ifs <;> simp <;> omega
  · split_ifs <;> simp <;> omega
  · split_ifs <;> simp <;> grind
  · split_ifs <;> simp <;> grind

theorem updateOrderStatus_status (db : Db) (row : OrderRow) :
    (updateOrderStatus db row).1.status = statusOf db row := by
  rw [updateOrderStatus]
  split
  · rfl
  · rename_i h
    exact (not_not.mp h).symm

/-- The status does not depend on the status before, if there is an item that was not replaced. -/
theorem statusOf_of_pos (hsums : calculateQuantityIncludingReturns db row.pk = (total, fulfilled, returned))
    (hpos : 0 < total) (status : OrderStatus) :
    statusOf db { row with status } = statusOf db row := by
  simp only [statusOf, hsums, if_neg hpos.ne']

theorem updateOrderStatus_again
    (hsums : calculateQuantityIncludingReturns db row.pk = (total, fulfilled, returned))
    (hpos : 0 < total) : updateOrderStatus db (updateOrderStatus db row).1 =
      ((updateOrderStatus db row).1, false) := by
  by_cases hsaved : statusOf db row ≠ row.status
  · have hagain : statusOf db { row with status := statusOf db row } = statusOf db row :=
      statusOf_of_pos hsums hpos _
    have hfirst : updateOrderStatus db row = ({ row with status := statusOf db row }, true) :=
      if_pos hsaved
    rw [hfirst, updateOrderStatus, hagain]
    exact if_neg (not_not.mpr rfl)
  · have hfirst : updateOrderStatus db row = (row, false) := if_neg hsaved
    rw [hfirst, hfirst]

/-- **The status follows the items**, in an order with an item that was not replaced, exactly if it is
not the case that the slug starts with `shared` and all items are in fulfillments, none of which awaits
approval or was returned. -/
theorem followsItems_iff (db : Db) (order : OrderRow) (h : CountsItems db order.pk)
    (hleft : ∃ l ∈ db.orderLinesOf order.pk,
      itemsIn db order.pk (· = .replaced) l.pk < l.quantity) :
    FollowsItems db order ↔ ¬ ("shared".toList <+: order.channelSlug.toList ∧
      AllFulfilled db order.pk ∧ NoneAwaitsApproval db order.pk ∧ NoneReturned db order.pk) := by
  have hsums := h.sums hleft
  obtain ⟨⟨total, fulfilled, returned⟩, hcalculate⟩ :
      ∃ sums, calculateQuantityIncludingReturns db order.pk = sums := ⟨_, rfl⟩
  rw [hcalculate] at hsums
  obtain ⟨hunfulfilled, hreturned, hleased, hfulfilled⟩ := statusOf_iff hcalculate hsums
  have hshared := @find_pos_iff order.channelSlug.toList "shared".toList
  rw [hshared] at hleased hfulfilled
  rw [awaitingApproval_eq_false, hsums.allFulfilled] at hleased hfulfilled
  rw [hsums.noneReturned] at hfulfilled
  constructor
  · rintro hfollows ⟨hstarts, hall, hwaits, hnone⟩
    have hstatus := hfulfilled.mpr ⟨fun hwithin => hwithin.2 hstarts, hall, hwaits, hnone⟩
    rw [← updateOrderStatus_status] at hstatus
    exact (hfollows.fulfilled hstatus).1 hstarts.isInfix
  · intro hstarts
    refine ⟨?_, ?_, ?_, ?_, updateOrderStatus_again hcalculate hsums.pos⟩ <;> rw [updateOrderStatus_status]
    · intro hstatus
      obtain ⟨hfind, hall, hwaits, hnone⟩ := hfulfilled.mp hstatus
      refine ⟨fun hwithin => hfind ⟨hwithin, fun h => hstarts ⟨h, hall, hwaits, hnone⟩⟩, hall, hwaits,
        hnone⟩
    · intro hstatus
      obtain ⟨hfind, hall, hwaits, -⟩ := hleased.mp hstatus
      exact ⟨hfind.1, hall, hwaits⟩
    · rw [hreturned, hsums.allReturned]
    · rw [hunfulfilled, hsums.noneFulfilled]

/-- An order of two items of one line, both in a fulfillment. -/
def sentDb : Db where
  orderLines := Serial.empty.create
    (fun pk => { pk, order := 1, quantity := 2, quantityFulfilled := 2 }) fun _ => rfl
  fulfillments := Serial.empty.create (fun pk => { pk, order := 1, status := .fulfilled }) fun _ => rfl
  fulfillmentLines :=
    { toSerial := Serial.empty.create
        (fun pk => { pk, orderLine := 1, fulfillment := 1, quantity := 2 }) fun _ => rfl
      quantity_nonneg := by decide }

theorem countsItems_sentDb : CountsItems sentDb 1 where
  counted := by decide
  bounded := by decide
  own := by decide

/-- Sent to a customer of an ordinary channel. -/
theorem followsItems_iff_sent : FollowsItems sentDb
    { pk := 1, channelSlug := "default-channel", status := .unfulfilled } := by
  refine (followsItems_iff _ _ countsItems_sentDb (by decide)).mpr fun h => ?_
  exact absurd h.1 (by decide)

/-- The slug starts with `shared`, and the order is fulfilled where it should be leased. -/
theorem not_followsItems_sharedBooks :
    ¬ ∀ (db : Db) (order : OrderRow), CountsItems db order.pk →
      (∃ l ∈ db.orderLinesOf order.pk, itemsIn db order.pk (· = .replaced) l.pk < l.quantity) →
      FollowsItems db order := by
  intro h
  have hfollows := h sentDb { pk := 1, channelSlug := "shared-books", status := .unfulfilled }
    countsItems_sentDb (by decide)
  have hstatus : (updateOrderStatus sentDb
      { pk := 1, channelSlug := "shared-books", status := .unfulfilled }).1.status = .fulfilled := by
    decide
  exact (hfollows.fulfilled hstatus).1 ⟨[], "-books".toList, by decide⟩

end Fulfillments

end Aixinwu
