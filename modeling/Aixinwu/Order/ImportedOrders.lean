import Aixinwu.Lib.Grouping
import Aixinwu.Order.BulkAmounts

/-!
# What an imported order is like

An order that `OrderBulkCreate` creates is as its input says, and the checks see to it that the input is
consistent, each under the policies it belongs to. That no line is fulfilled beyond its quantity is
checked while the stocks are handled, and with `SKIP` they are not. That the status agrees with what is
fulfilled is reported like any error that is not critical, and `IGNORE_FAILED` creates an order in spite
of it. The total of an order is that of its lines; the shipping price stands beside it.

The status is compared with sums over the whole order, and these tell what is fulfilled of each line
only as long as no line is fulfilled beyond its quantity (`statusAgrees_of_not_invalid`).

## Main definitions

* `Consistent` — with the shipping price in the total, and under all policies
* `Imported` — what is so under which policies

## Main results

* `createSingleOrder_made` — the steps of an order that is made
* `exists_made_of_created` — a created order is as it was made
* `imported_of_performMutation`
-/

namespace Aixinwu

namespace BulkAmounts

open BulkCreate (OrderBulkError OrderBulkCreateData OrderBulkOrderLine OrderBulkFulfillmentLine
  FulfillmentLineInput MutationError SavedOrder ErrorPolicy StockUpdatePolicy StockMap Database
  prepareSave Fillable)

/-! ### Consistency -/

/-- The status says whether none, some or all of the items are fulfilled, if it says it at all. -/
structure StatusAgrees (status : OrderStatus) (lines : List OrderBulkOrderLine) : Prop where
  unfulfilled : status = .unfulfilled → ∀ line ∈ lines, line.quantityFulfilled = 0
  partially : status = .partiallyFulfilled →
    (∃ line ∈ lines, 0 < line.quantityFulfilled) ∧
      ∃ line ∈ lines, line.quantityFulfilled < line.quantity
  fulfilled : status = .fulfilled → ∀ line ∈ lines, line.quantityFulfilled = line.quantity

/-- A consistent order, with the shipping price in its total. -/
structure Consistent (order : OrderData) (fields : OrderFields) : Prop where
  quantity : ∀ line ∈ order.data.lines, 1 ≤ line.quantity
  fulfilled : ∀ index line, order.data.lines[index]? = some line →
    line.quantityFulfilled = order.data.quantityFulfilled index ∧ 0 ≤ line.quantityFulfilled ∧
      line.quantityFulfilled ≤ line.quantity
  fulfillmentLines : ∀ line ∈ order.data.fulfillments.flatten, 0 < line.quantity
  totalGross : fields.amounts.totalGross =
    (order.lineAmounts.map LineAmounts.totalGross).sum + fields.amounts.shippingPriceGross
  totalNet : fields.amounts.totalNet =
    (order.lineAmounts.map LineAmounts.totalNet).sum + fields.amounts.shippingPriceNet
  status : StatusAgrees fields.status order.data.lines

/-- What an order is like that is created under some policies. -/
structure Imported (errorPolicy : ErrorPolicy) (stockUpdatePolicy : StockUpdatePolicy)
    (order : OrderData) (fields : OrderFields) : Prop where
  quantity : ∀ line ∈ order.data.lines, 1 ≤ line.quantity
  fulfilled : ∀ index line, order.data.lines[index]? = some line →
    line.quantityFulfilled = order.data.quantityFulfilled index ∧ 0 ≤ line.quantityFulfilled
  fulfilled_le : stockUpdatePolicy ≠ .skip →
    ∀ line ∈ order.data.lines, line.quantityFulfilled ≤ line.quantity
  fulfillmentLines : ∀ line ∈ order.data.fulfillments.flatten,
    0 ≤ line.quantity ∧ line.orderLine < order.data.lines.length
  lineAmounts : order.lineAmounts.map LineAmounts.quantity =
    order.data.lines.map OrderBulkOrderLine.quantity
  totalGross : fields.amounts.totalGross = (order.lineAmounts.map LineAmounts.totalGross).sum
  totalNet : fields.amounts.totalNet = (order.lineAmounts.map LineAmounts.totalNet).sum
  undiscountedTotalGross : fields.amounts.undiscountedTotalGross =
    (order.lineAmounts.map LineAmounts.undiscountedTotalGross).sum
  undiscountedTotalNet : fields.amounts.undiscountedTotalNet =
    (order.lineAmounts.map LineAmounts.undiscountedTotalNet).sum
  reported : errorPolicy ≠ .ignoreFailed → order.data.errors = []
  status : (∀ line ∈ order.data.lines, line.quantityFulfilled ≤ line.quantity) →
    invalidStatusError ∉ order.data.errors → StatusAgrees fields.status order.data.lines

/-! ### Lines and fulfillments as they are made -/

section Making

variable {d d' : OrderBulkCreateData}

theorem Reports.lines (h : Reports d d') : d'.lines = d.lines := by
  obtain ⟨report, rfl⟩ := h
  rfl

theorem Reports.fulfillments (h : Reports d d') : d'.fulfillments = d.fulfillments := by
  obtain ⟨report, rfl⟩ := h
  rfl

/-- The lines have quantities, and amounts that go with them. -/
structure LinesMade (d : OrderBulkCreateData) (amounts : List LineAmounts) : Prop where
  quantity : ∀ line ∈ d.lines, 1 ≤ line.quantity
  amounts : amounts.map LineAmounts.quantity = d.lines.map OrderBulkOrderLine.quantity

theorem createSingleOrderLine_eq_ok {places : ℕ} {input : OrderLineInput} {index : ℕ}
    {made : Option (OrderBulkOrderLine × LineAmounts)}
    (h : createSingleOrderLine places input index d = .ok (d', made)) :
    Reports d d' ∧ ∀ line amounts, made = some (line, amounts) →
      1 ≤ line.quantity ∧ amounts.quantity = line.quantity := by
  have hvariant : Reports d (d.addLookup input.variant) := reports_addLookup input.variant
  have hwarehouse := hvariant.trans (reports_addLookup input.warehouse)
  have htaxClass := hwarehouse.trans (reports_addLookup input.taxClass)
  have hamounts := htaxClass.trans (reports_makeOrderLineCalculations input.toOrderLineInput index)
  rw [createSingleOrderLine] at h
  dsimp only at h
  split at h
  · cases h
    exact ⟨hvariant.trans (reports_addError _), fun line amounts hnone => by cases hnone⟩
  · split at h
    · cases h
      exact ⟨hwarehouse, fun line amounts hnone => by cases hnone⟩
    · rw [makeOrderLineCalculations_eq] at h
      split at h
      · cases h
      · rename_i hcalculations
        cases h
        obtain ⟨rfl, -⟩ := Prod.mk.inj (Except.ok.inj hcalculations)
        exact ⟨hamounts, fun line amounts hnone => by cases hnone⟩
      · rename_i dAmounts amounts hcalculations
        obtain ⟨rfl, hsome⟩ := Prod.mk.inj (Except.ok.inj hcalculations)
        split at h
        · cases h
        · cases h
          refine ⟨(hamounts.trans (reports_addUnless _ _)).trans (reports_addErrors _), ?_⟩
          rintro line amounts' hline
          cases hline
          split at hsome
          · cases hsome
          · rename_i hcritical
            have hone := one_le_quantity_of_not_critical (Bool.eq_false_iff.mpr hcritical)
            cases hsome
            refine ⟨?_, rfl⟩
            show 1 ≤ input.quantity.toNat
            omega

theorem createOrderLines_keeps {places : ℕ} {inputs : List OrderLineInput} {index : ℕ}
    {amounts amounts' : List LineAmounts} (hd : LinesMade d amounts)
    (h : createOrderLines places inputs index d amounts = .ok (d', amounts')) :
    LinesMade d' amounts' ∧ d'.fulfillments = d.fulfillments := by
  induction inputs generalizing index d amounts with
  | nil =>
    cases h
    exact ⟨hd, rfl⟩
  | cons input inputs ih =>
    rw [createOrderLines] at h
    split at h
    · cases h
    · rename_i dLine line lineAmounts hline
      obtain ⟨hreports, hmade⟩ := createSingleOrderLine_eq_ok hline
      obtain ⟨hone, hquantity⟩ := hmade line lineAmounts rfl
      have hnext : LinesMade { dLine with lines := dLine.lines ++ [line] }
          (amounts ++ [lineAmounts]) := by
        refine ⟨fun line' hline' => ?_, ?_⟩
        · rcases List.mem_append.mp hline' with hold | hnew
          · exact hd.quantity line' (hreports.lines ▸ hold)
          · obtain rfl := List.mem_singleton.mp hnew
            exact hone
        · dsimp only
          rw [List.map_append, List.map_append, hd.amounts, hreports.lines, List.map_singleton,
            List.map_singleton, hquantity]
      obtain ⟨hlines, hfulfillments⟩ := ih hnext h
      exact ⟨hlines, hfulfillments.trans hreports.fulfillments⟩
    · rename_i dLine hline
      have hreports := (createSingleOrderLine_eq_ok hline).1
      have hnext : LinesMade { dLine with isCriticalError := true } amounts :=
        ⟨fun line hline => hd.quantity line (hreports.lines ▸ hline), by
          dsimp only
          rw [hreports.lines, hd.amounts]⟩
      obtain ⟨hlines, hfulfillments⟩ := ih hnext h
      exact ⟨hlines, hfulfillments.trans hreports.fulfillments⟩

/-- The lines of a fulfillment are of lines of the order. -/
theorem createFulfillmentLines_eq (index : ℕ) (inputs : List FulfillmentLineInput) (lineIndex : ℕ)
    (d : OrderBulkCreateData) :
    Reports d (BulkCreate.createFulfillmentLines index inputs lineIndex d).1 ∧
      ∀ lines, (BulkCreate.createFulfillmentLines index inputs lineIndex d).2 = some lines →
        ∀ line ∈ lines, line.orderLine < d.lines.length := by
  induction inputs generalizing lineIndex d with
  | nil =>
    refine ⟨reports_refl d, fun lines hlines line hline => ?_⟩
    obtain rfl := Option.some.inj hlines
    cases hline
  | cons input inputs ih =>
    have hlookups : Reports d ((d.addLookup input.variant).addLookup input.warehouse) :=
      (reports_addLookup input.variant).trans (reports_addLookup input.warehouse)
    have herror := fun e => hlookups.trans (reports_addError e)
    rw [BulkCreate.createFulfillmentLines]
    split
    · exact ⟨hlookups, fun lines hlines => by cases hlines⟩
    · split
      · exact ⟨herror _, fun lines hlines => by cases hlines⟩
      · split
        · exact ⟨herror _, fun lines hlines => by cases hlines⟩
        · rename_i orderLine horderLine
          split
          · exact ⟨herror _, fun lines hlines => by cases hlines⟩
          · split
            · exact ⟨herror _, fun lines hlines => by cases hlines⟩
            · obtain ⟨hreports, hrange⟩ := ih (lineIndex + 1)
                ((d.addLookup input.variant).addLookup input.warehouse)
              split
              · rename_i dLines hlines
                rw [hlines] at hreports
                exact ⟨hlookups.trans hreports, fun lines hlines => by cases hlines⟩
              · rename_i dLines lines hlines
                rw [hlines] at hreports hrange
                refine ⟨hlookups.trans hreports, fun lines' hlines' => ?_⟩
                obtain rfl := Option.some.inj hlines'
                rw [← hlookups.lines]
                exact List.forall_mem_cons.mpr
                  ⟨(List.getElem?_eq_some_iff.mp horderLine).1, hrange lines rfl⟩

/-- What is fulfilled is of lines of the order. -/
def InRange (d : OrderBulkCreateData) : Prop :=
  ∀ line ∈ d.fulfillments.flatten, line.orderLine < d.lines.length

theorem createFulfillments_keeps (inputs : List (List FulfillmentLineInput)) (index : ℕ)
    (hd : InRange d) :
    InRange (BulkCreate.createFulfillments inputs index d) ∧
      (BulkCreate.createFulfillments inputs index d).lines = d.lines := by
  induction inputs generalizing index d with
  | nil => exact ⟨hd, rfl⟩
  | cons input inputs ih =>
    have hspec := createFulfillmentLines_eq index input 0 d
    rw [BulkCreate.createFulfillments]
    split
    · rename_i dLines lines hlines
      rw [hlines] at hspec
      obtain ⟨hreports, hrange⟩ := hspec
      have hnext : InRange { dLines with fulfillments := dLines.fulfillments ++ [lines] } := by
        intro line hline
        dsimp only at hline ⊢
        rw [hreports.fulfillments, List.flatten_append, List.flatten_singleton,
          List.mem_append] at hline
        rw [hreports.lines]
        exact hline.elim (hd line) (hrange lines rfl line)
      obtain ⟨hfulfillments, hlines⟩ := ih (index + 1) hnext
      exact ⟨hfulfillments, hlines.trans hreports.lines⟩
    · rename_i dLines hlines
      rw [hlines] at hspec
      obtain ⟨hreports, -⟩ := hspec
      have hnext : InRange { dLines with isCriticalError := true } := by
        intro line hline
        dsimp only at hline ⊢
        rw [hreports.lines]
        exact hd line (hreports.fulfillments ▸ hline)
      obtain ⟨hfulfillments, hlines⟩ := ih (index + 1) hnext
      exact ⟨hfulfillments, hlines.trans hreports.lines⟩

end Making

/-! ### Orders as they are made -/

section Made

variable {orders : List SavedOrder} {listings : Listings} {input : OrderInput}
  {prices prices' : ShippingPrices} {made : OrderData}

/-- The steps of an order that is made. -/
theorem createSingleOrder_made
    (h : createSingleOrder orders listings input prices = .ok (prices', made))
    (horder : made.data.order.isSome = true) :
    ∃ d dRelated dLines dAmounts deliveryMethod amounts errors,
      validateOrderInput orders input = .ok d ∧
      Reports { d with order := some ⟨input.externalReference⟩ } dRelated ∧
      createOrderLines input.places input.lines 0 dRelated [] = .ok (dLines, made.lineAmounts) ∧
      makeOrderCalculations (fun method => listings method input.channel) deliveryMethod
        input.deliveryMethod made.lineAmounts prices
        (BulkCreate.createFulfillments input.fulfillments 0 dLines) = .ok (prices', dAmounts, amounts) ∧
      made.data = (validateOrderStatus input.status (dAmounts.addErrors errors)).addErrors
        input.metadata ∧
      made.fields = some ⟨input.status, amounts⟩ := by
  rw [createSingleOrder] at h
  split at h
  · cases h
  · rename_i d hvalid
    split at h
    · cases h
      rw [(BulkCreate.validateOrderInput_spec hvalid).1] at horder
      cases horder
    · have hrelated := (reports_addReport
        (d := { d with order := some ⟨input.externalReference⟩ }) input.instances).trans
          (reports_getDeliveryMethod input.deliveryMethod (isShippingRequired input))
      dsimp only at h
      generalize getDeliveryMethod input.deliveryMethod (isShippingRequired input) _ = delivery
        at h hrelated
      split at h
      · cases h
        cases horder
      · split at h
        · cases h
        · rename_i dLines lines hlines
          split at h
          · cases h
            cases horder
          · split at h
            · cases h
              cases horder
            · split at h
              · cases h
              · rename_i pricesAfter dAmounts amounts hamounts
                split at h
                · cases h
                  cases horder
                · split at h
                  · cases h
                  · rename_i errors _
                    cases h
                    exact ⟨d, _, dLines, dAmounts, _, amounts, errors, hvalid, hrelated, hlines,
                      hamounts, rfl, rfl⟩

/-- What is known of an order when it is made. -/
structure MadeOrder (made : OrderData) (fields : OrderFields) : Prop where
  linesMade : LinesMade made.data made.lineAmounts
  inRange : InRange made.data
  amounts : ∃ shippingPrice shippingTaxRate,
    fields.amounts = orderAmounts made.lineAmounts shippingPrice shippingTaxRate
  status : invalidStatusError ∉ made.data.errors →
    ¬ InvalidStatus fields.status (totalOrderQuantity made.data) (totalFulfillmentQuantity made.data)

theorem validateOrderInput_blank {d : OrderBulkCreateData}
    (h : validateOrderInput orders input = .ok d) : d.lines = [] ∧ d.fulfillments = [] := by
  have hreference : ∀ reference d, Reports d (BulkCreate.checkReference orders reference d) := by
    intro reference d
    cases reference with
    | none => exact reports_refl d
    | some reference => exact reports_ite (reports_addCritical _)
  rw [validateOrderInput, BulkCreate.validateOrderInput] at h
  split at h
  · cases h
  · rename_i valid _
    have hreports : Reports ⟨none, [], [], [], false⟩ d := by
      obtain rfl := Except.ok.inj h
      exact (((reports_addUnless valid _).trans (reports_addErrors _)).trans
        (hreference _ _)).trans (reports_addReport _)
    exact ⟨hreports.lines, hreports.fulfillments⟩

theorem validateOrderStatus_reported {status : OrderStatus} {d : OrderBulkCreateData}
    (h : InvalidStatus status (totalOrderQuantity d) (totalFulfillmentQuantity d)) :
    invalidStatusError ∈ (validateOrderStatus status d).errors := by
  rw [validateOrderStatus, if_pos h]
  exact List.mem_append_right d.errors (List.mem_singleton_self invalidStatusError)

/-- **A made order** has what the checks of its making ask for. -/
theorem madeOrder_of_createSingleOrder
    (h : createSingleOrder orders listings input prices = .ok (prices', made))
    (horder : made.data.order.isSome = true) :
    ∃ fields, made.fields = some fields ∧ MadeOrder made fields := by
  obtain ⟨d, dRelated, dLines, dAmounts, deliveryMethod, amounts, errors, hvalid, hrelated, hlines,
    hamounts, hdata, hfields⟩ := createSingleOrder_made h horder
  obtain ⟨hnoLines, hnoFulfillments⟩ := validateOrderInput_blank hvalid
  have hblank : LinesMade dRelated [] := by
    refine ⟨fun line hline => ?_, ?_⟩
    · rw [hrelated.lines, hnoLines] at hline
      cases hline
    · rw [hrelated.lines, hnoLines]
      rfl
  obtain ⟨hlinesMade, hfulfillments⟩ := createOrderLines_keeps hblank hlines
  have hnone : InRange dLines := by
    intro line hline
    rw [hfulfillments, hrelated.fulfillments, hnoFulfillments] at hline
    cases hline
  obtain ⟨hrange, hsameLines⟩ := createFulfillments_keeps input.fulfillments 0 hnone
  obtain ⟨hreports, hamounts⟩ := makeOrderCalculations_eq_ok hamounts
  obtain ⟨statusErrors, hstatus⟩ := exists_validateOrderStatus input.status
    (dAmounts.addErrors errors)
  have hall : Reports (BulkCreate.createFulfillments input.fulfillments 0 dLines) made.data := by
    rw [hdata, hstatus]
    exact ((hreports.trans (reports_addErrors _)).trans (reports_addErrors _)).trans
      (reports_addErrors _)
  refine ⟨_, hfields, ⟨fun line hline => ?_, ?_⟩, fun line hline => ?_, hamounts, fun herror => ?_⟩
  · rw [hall.lines, hsameLines] at hline
    exact hlinesMade.quantity line hline
  · rw [hall.lines, hsameLines]
    exact hlinesMade.amounts
  · rw [hall.fulfillments] at hline
    rw [hall.lines]
    exact hrange line hline
  · intro hinvalid
    refine herror ?_
    rw [hdata]
    refine List.mem_append_left input.metadata (validateOrderStatus_reported ?_)
    have hquantities : totalOrderQuantity made.data = totalOrderQuantity (dAmounts.addErrors errors) ∧
        totalFulfillmentQuantity made.data =
          totalFulfillmentQuantity (dAmounts.addErrors errors) := by
      rw [hdata, hstatus]
      exact ⟨rfl, rfl⟩
    rwa [← hquantities.1, ← hquantities.2]

theorem exists_madeOrder_of_createOrders {inputs : List OrderInput} {makes : List OrderData}
    (h : createOrders orders listings inputs prices = .ok makes) (hmade : made ∈ makes)
    (horder : made.data.order.isSome = true) :
    ∃ fields, made.fields = some fields ∧ MadeOrder made fields := by
  induction inputs generalizing prices makes with
  | nil =>
    cases h
    cases hmade
  | cons input inputs ih =>
    obtain ⟨prices', first, rest, hfirst, hrest, rfl⟩ := createOrders_cons_eq_ok h
    rcases List.mem_cons.mp hmade with rfl | hmade
    · exact madeOrder_of_createSingleOrder hfirst horder
    · exact ih hrest hmade

end Made

/-! ### Orders as they are created -/

section Created

variable {db : Database} {errorPolicy : ErrorPolicy} {stockUpdatePolicy : StockUpdatePolicy}
  {ds : List OrderBulkCreateData} {d : OrderBulkCreateData} {j : ℕ}

/-- An order that an error policy leaves is as it was made, and has errors only with
`IGNORE_FAILED`. -/
theorem getElem_handleErrorPolicy (hd : (BulkCreate.handleErrorPolicy errorPolicy ds)[j]? = some d)
    (horder : d.order.isSome = true) :
    ds[j]? = some d ∧ (errorPolicy ≠ .ignoreFailed → d.errors = []) := by
  rw [BulkCreate.handleErrorPolicy] at hd
  split at hd
  · rw [List.getElem?_map, Option.map_eq_some_iff] at hd
    obtain ⟨p, hp, rfl⟩ := hd
    cases errorPolicy with
    | ignoreFailed => exact ⟨hp, fun h => absurd rfl h⟩
    | rejectEverything => cases horder
    | rejectFailedRows =>
      rw [BulkCreate.police] at horder ⊢
      split at horder
      · cases horder
      · rename_i herrors
        rw [if_neg herrors]
        exact ⟨hp, fun _ => not_not.mp herrors⟩
  · rename_i herrors
    rw [ne_eq, not_not, BulkCreate.flatMap_errors_eq_nil_iff] at herrors
    exact ⟨hd, fun _ => herrors d (List.mem_of_getElem? hd)⟩

/-- An order that is saved is as it was before the stocks were handled, and they give it what it asks
for. -/
theorem getElem_finalOrders
    (hd : (BulkCreate.finalOrders db stockUpdatePolicy ds)[j]? = some d)
    (horder : d.order.isSome = true) :
    ∃ p, ds[j]? = some p ∧ p.order.isSome = true ∧ d = prepareSave p ∧
      (stockUpdatePolicy ≠ .skip → Fillable p.quantityFulfilled p.lines 0) := by
  rw [BulkCreate.finalOrders, List.getElem?_map, Option.map_eq_some_iff] at hd
  obtain ⟨handled, hhandled, rfl⟩ := hd
  rw [BulkCreate.prepareSave_order, Bool.and_eq_true, Bool.not_eq_true'] at horder
  obtain ⟨hcritical, horder⟩ := horder
  rw [BulkCreate.handleStocksUnlessSkip] at hhandled
  split at hhandled
  · rename_i hskip
    exact ⟨handled, hhandled, horder, rfl, fun h => absurd hskip h⟩
  · have hj : j < ds.length := by
      have hlt := (List.getElem?_eq_some_iff.mp hhandled).1
      rwa [BulkCreate.handleStocks_eq, BulkCreate.handleOrders, Tentative.length_attempts] at hlt
    obtain ⟨t, rfl⟩ := Tentative.exists_attempt_of_getElem (List.getElem?_eq_getElem hj) hhandled
    obtain ⟨hcan, -, hkept⟩ := BulkCreate.handleOrder_of_kept hcritical
    rw [hkept] at horder ⊢
    exact ⟨ds[j], List.getElem?_eq_getElem hj, horder, rfl, fun _ => hcan.fillable⟩

theorem fillable_getElem {f : ℕ → ℤ} {lines : List OrderBulkOrderLine} {index : ℕ}
    (h : Fillable f lines index) {line : OrderBulkOrderLine} (hline : lines[j]? = some line) :
    f (index + j) ≤ line.quantity := by
  induction lines generalizing index j with
  | nil => cases hline
  | cons line' lines ih =>
    cases j with
    | zero =>
      obtain rfl := Option.some.inj hline
      exact h.1
    | succ j =>
      have hrest := ih h.2 hline
      rwa [Nat.add_right_comm] at hrest

theorem getElem_prepareSave {line : OrderBulkOrderLine} :
    (prepareSave d).lines[j]? = some line ↔
      ∃ line', d.lines[j]? = some line' ∧
        line = { line' with quantityFulfilled := d.quantityFulfilled j } := by
  rw [prepareSave]
  dsimp only
  rw [List.getElem?_mapIdx, Option.map_eq_some_iff]
  exact exists_congr fun line' => and_congr_right fun _ => eq_comm

/-- A line that is saved, with the place it has. -/
theorem exists_of_mem_prepareSave {line : OrderBulkOrderLine} (h : line ∈ (prepareSave d).lines) :
    ∃ (j : ℕ) (line' : OrderBulkOrderLine), d.lines[j]? = some line' ∧
      line = { line' with quantityFulfilled := d.quantityFulfilled j } := by
  obtain ⟨j, hj⟩ := List.mem_iff_getElem?.mp h
  obtain ⟨line', hline', rfl⟩ := getElem_prepareSave.mp hj
  exact ⟨j, line', hline', rfl⟩

theorem map_quantity_prepareSave (d : OrderBulkCreateData) :
    (prepareSave d).lines.map OrderBulkOrderLine.quantity =
      d.lines.map OrderBulkOrderLine.quantity := by
  rw [prepareSave]
  refine List.ext_getElem ?_ fun j h₁ h₂ => ?_
  · rw [List.length_map, List.length_mapIdx, List.length_map]
  · simp only [List.getElem_map, List.getElem_mapIdx]

theorem totalOrderQuantity_prepareSave (d : OrderBulkCreateData) :
    totalOrderQuantity (prepareSave d) = totalOrderQuantity d := by
  have hcast : ∀ lines : List OrderBulkOrderLine, (lines.map fun line => (line.quantity : ℤ)) =
      (lines.map OrderBulkOrderLine.quantity).map Nat.cast := fun lines => List.map_map.symm
  rw [totalOrderQuantity, totalOrderQuantity, hcast, hcast, map_quantity_prepareSave]

theorem map_quantityFulfilled_prepareSave (d : OrderBulkCreateData) :
    (prepareSave d).lines.map OrderBulkOrderLine.quantityFulfilled =
      (List.range d.lines.length).map d.quantityFulfilled := by
  rw [prepareSave]
  refine List.ext_getElem ?_ fun j h₁ h₂ => ?_
  · rw [List.length_map, List.length_mapIdx, List.length_map, List.length_range]
  · simp only [List.getElem_map, List.getElem_mapIdx, List.getElem_range]

/-- What is fulfilled in all is fulfilled of the lines. -/
theorem sum_quantityFulfilled (h : InRange d) :
    ((prepareSave d).lines.map OrderBulkOrderLine.quantityFulfilled).sum =
      totalFulfillmentQuantity d := by
  rw [map_quantityFulfilled_prepareSave]
  refine (sum_sumIf_key OrderBulkFulfillmentLine.orderLine OrderBulkFulfillmentLine.quantity
    (List.nodup_range) d.fulfillments.flatten).trans (sumIf_of_forall fun line hline => ?_)
  rw [decide_eq_true_iff]
  exact List.mem_range.mpr (h line hline)

theorem quantityFulfilled_nonneg (h : ∀ line ∈ d.fulfillments.flatten, 0 ≤ line.quantity) (j : ℕ) :
    0 ≤ d.quantityFulfilled j := by
  refine List.sum_nonneg fun quantity hquantity => ?_
  obtain ⟨line, hline, rfl⟩ := List.mem_map.mp hquantity
  exact h line (List.mem_of_mem_filter hline)

end Created

/-! ### The status -/

/-- Where no line is fulfilled beyond its quantity, sums over the lines tell what is fulfilled of
each. -/
theorem statusAgrees_of_not_invalid {status : OrderStatus} {lines : List OrderBulkOrderLine}
    (hnonneg : ∀ line ∈ lines, 0 ≤ line.quantityFulfilled)
    (hle : ∀ line ∈ lines, line.quantityFulfilled ≤ line.quantity)
    (h : ¬ InvalidStatus status (lines.map fun line => (line.quantity : ℤ)).sum
      (lines.map OrderBulkOrderLine.quantityFulfilled).sum) :
    StatusAgrees status lines := by
  have hall := Grouping.sum_map_eq_iff_of_le hle
  have hnone := Grouping.sum_map_eq_iff_of_le hnonneg
  rw [List.map_const', List.sum_replicate, smul_zero] at hnone
  have hsum := List.sum_le_sum hle
  have hsum_nonneg := List.sum_le_sum hnonneg
  rw [List.map_const', List.sum_replicate, smul_zero] at hsum_nonneg
  refine ⟨?_, ?_, ?_⟩
  · rintro rfl
    have hzero : 0 = (lines.map OrderBulkOrderLine.quantityFulfilled).sum := by
      by_contra hne
      refine h ?_
      rw [InvalidStatus]
      by_cases heq : (lines.map fun line => (line.quantity : ℤ)).sum =
          (lines.map OrderBulkOrderLine.quantityFulfilled).sum
      · exact Or.inr (Or.inr ⟨heq, Or.inr rfl⟩)
      · exact Or.inr (Or.inl ⟨by omega, by omega, Or.inr rfl⟩)
    exact fun line hline => (hnone.mp hzero line hline).symm
  · rintro rfl
    constructor
    · by_contra hno
      refine h (Or.inl ⟨(hnone.mpr fun line hline => ?_).symm, Or.inl rfl⟩)
      by_contra hne
      have hpos := hnonneg line hline
      exact hno ⟨line, hline, by omega⟩
    · by_contra hno
      refine h (Or.inr (Or.inr ⟨(hall.mpr fun line hline => ?_).symm, Or.inl rfl⟩))
      by_contra hne
      have hline_le := hle line hline
      exact hno ⟨line, hline, by omega⟩
  · rintro rfl
    refine hall.mp ?_
    by_contra hne
    refine h ?_
    by_cases hzero : (lines.map OrderBulkOrderLine.quantityFulfilled).sum = 0
    · exact Or.inl ⟨hzero, Or.inr rfl⟩
    · exact Or.inr (Or.inl ⟨by omega, by omega, Or.inl rfl⟩)


/-! ### Imports -/

section Imports

variable {db db' : Database} {listings : Listings} {inputs : List OrderInput}
  {errorPolicy : ErrorPolicy} {stockUpdatePolicy : StockUpdatePolicy} {final : List OrderData}

/-- **A created order** is as it was made, apart from what it is told when it is saved. -/
theorem exists_made_of_created
    (h : performMutation db listings inputs errorPolicy stockUpdatePolicy = .ok (db', final))
    {order : OrderData} (hmem : order ∈ final) (hcreated : order.data.order.isSome = true) :
    ∃ made fields, order = { made with data := prepareSave made.data } ∧
      made.fields = some fields ∧ MadeOrder made fields ∧
      (errorPolicy ≠ .ignoreFailed → made.data.errors = []) ∧
      (stockUpdatePolicy ≠ .skip → Fillable made.data.quantityFulfilled made.data.lines 0) ∧
      ∀ line ∈ made.data.fulfillments.flatten, 0 ≤ line.quantity := by
  obtain ⟨-, makes, hmakes, hsavable, -, rfl⟩ := performMutation_eq_ok_iff.mp h
  obtain ⟨j, hj⟩ := List.mem_iff_getElem?.mp hmem
  rw [List.getElem?_zipWith] at hj
  split at hj
  · rename_i made data hmade hdata
    obtain rfl := Option.some.inj hj
    obtain ⟨p, hp, hporder, rfl, hfillable⟩ := getElem_finalOrders hdata hcreated
    obtain ⟨hmadeData, herrors⟩ := getElem_handleErrorPolicy hp hporder
    rw [List.getElem?_map, hmade] at hmadeData
    obtain rfl := Option.some.inj hmadeData
    obtain ⟨fields, hfields, hmadeOrder⟩ :=
      exists_madeOrder_of_createOrders hmakes (List.mem_of_getElem? hmade) hporder
    refine ⟨made, fields, rfl, hfields, hmadeOrder, herrors, hfillable, ?_⟩
    obtain ⟨saved, hsaved⟩ := Option.isSome_iff_exists.mp hcreated
    refine hsavable.2 ⟨saved, (prepareSave made.data).lines, made.data.fulfillments.flatten⟩ ?_
    refine List.mem_filterMap.mpr ⟨prepareSave made.data, List.mem_of_getElem? hdata, ?_⟩
    rw [OrderBulkCreateData.saved, hsaved]
    rfl
  · cases hj

/-- **Imported orders are consistent**, under the policies that ask for it, and their amounts can be
computed unless a shipping price comes without a net. -/
theorem imported_of_performMutation
    (h : performMutation db listings inputs errorPolicy stockUpdatePolicy = .ok (db', final)) :
    (∀ order ∈ final, order.data.order.isSome = true → ∃ fields, order.fields = some fields ∧
      Imported errorPolicy stockUpdatePolicy order fields) ∧
    (∀ (places : ℕ) (input : OrderLineInput) (index : ℕ) (d : OrderBulkCreateData),
      ∃ made, makeOrderLineCalculations places input index d = .ok made) ∧
    ∀ (listing : ℕ → Option ℚ) (deliveryMethod : DeliveryMethod) (input : DeliveryMethodInput)
      (lines : List LineAmounts) (prices : ShippingPrices) (d : OrderBulkCreateData),
      (∀ price, input.shippingPrice = some price → price.net ≠ 0) →
      ∃ made, makeOrderCalculations listing deliveryMethod input lines prices d = .ok made := by
  refine ⟨fun order hmem hcreated => ?_, fun places input index d => ?_, ?_⟩
  · obtain ⟨made, fields, rfl, hfields, hmade, herrors, hfillable, hfulfilled⟩ :=
      exists_made_of_created h hmem hcreated
    obtain ⟨shippingPrice, shippingTaxRate, hamounts⟩ := hmade.amounts
    have hnonneg : ∀ line ∈ (prepareSave made.data).lines, 0 ≤ line.quantityFulfilled := by
      intro line hline
      obtain ⟨j, line', -, rfl⟩ := exists_of_mem_prepareSave hline
      exact quantityFulfilled_nonneg hfulfilled j
    refine ⟨fields, hfields, ?_⟩
    exact {
      quantity := fun line hline => by
        obtain ⟨j, line', hline', rfl⟩ := exists_of_mem_prepareSave hline
        exact hmade.linesMade.quantity line' (List.mem_of_getElem? hline')
      fulfilled := fun index line hline => by
        refine ⟨?_, hnonneg line (List.mem_of_getElem? hline)⟩
        obtain ⟨line', -, rfl⟩ := getElem_prepareSave.mp hline
        rfl
      fulfilled_le := fun hpolicy line hline => by
        obtain ⟨j, line', hline', rfl⟩ := exists_of_mem_prepareSave hline
        have hle := fillable_getElem (hfillable hpolicy) hline'
        rwa [Nat.zero_add] at hle
      fulfillmentLines := fun line hline => by
        refine ⟨hfulfilled line hline, ?_⟩
        show line.orderLine < (prepareSave made.data).lines.length
        rw [prepareSave, List.length_mapIdx]
        exact hmade.inRange line hline
      lineAmounts := hmade.linesMade.amounts.trans (map_quantity_prepareSave made.data).symm
      totalGross := by rw [hamounts]; rfl
      totalNet := by rw [hamounts]; rfl
      undiscountedTotalGross := by rw [hamounts]; rfl
      undiscountedTotalNet := by rw [hamounts]; rfl
      reported := herrors
      status := fun hle hstatus => by
        refine statusAgrees_of_not_invalid hnonneg hle ?_
        rw [sum_quantityFulfilled hmade.inRange]
        show ¬ InvalidStatus _ (totalOrderQuantity (prepareSave made.data)) _
        rw [totalOrderQuantity_prepareSave]
        exact hmade.status hstatus }
  · exact ⟨_, makeOrderLineCalculations_eq⟩
  · intro listing deliveryMethod input lines prices d hnet
    cases hmade : makeOrderCalculations listing deliveryMethod input lines prices d with
    | ok made => exact ⟨made, rfl⟩
    | error e =>
      obtain ⟨-, ⟨price, hprice, hzero⟩, -⟩ := makeOrderCalculations_eq_error_iff.mp hmade
      exact absurd hzero (hnet price hprice)

end Imports

theorem nothing_reported : false = true → ([] : List OrderBulkError) ≠ [] := fun h => by cases h

/-- Two items of the one variant, shipped for five, of which some may be fulfilled. -/
def shippedInput (status : OrderStatus) (fulfilled : List ℤ) : OrderInput where
  createdAt := ⟨true, false⟩
  urlAndWeight := []
  externalReference := none
  currencyAndVoucher := ⟨[], false, nothing_reported⟩
  instances := ⟨[], false, nothing_reported⟩
  channel := 1
  places := 2
  lines := [{ toOrderLineInput := BulkCreate.lineInput 2, taxRate := none, isShippingRequired := true }]
  fulfillments := [fulfilled.map fun quantity => ⟨.ok 1, .ok 1, 0, quantity⟩]
  deliveryMethod := {
    shippingMethod := some (.ok 1)
    shippingTaxClass := .ok 1
    shippingPrice := some ⟨5, 5⟩ }
  details := .ok []
  status := status
  metadata := []

/-- One of two items is fulfilled. -/
theorem imported_shippedInput :
    ∃ db' final, performMutation BulkCreate.fiveInStock (fun _ _ => none)
        [shippedInput .partiallyFulfilled [1]] .rejectEverything .update = .ok (db', final) ∧
      (final.map fun order => order.data.order.isSome) = [true] ∧
      ∀ order ∈ final, order.data.order.isSome = true → ∃ fields, order.fields = some fields ∧
        Imported .rejectEverything .update order fields := by
  have hmade : ∃ makes, createOrders BulkCreate.fiveInStock.orders (fun _ _ => none)
      [shippedInput .partiallyFulfilled [1]] (fun _ => none) = .ok makes ∧
      BulkCreate.Savable BulkCreate.fiveInStock (BulkCreate.finalOrders BulkCreate.fiveInStock .update
        (BulkCreate.handleErrorPolicy .rejectEverything (makes.map OrderData.data))) := by
    refine ⟨_, rfl, ?_⟩
    rw [BulkCreate.Savable]
    decide +kernel
  obtain ⟨makes, hmakes, hsavable⟩ := hmade
  have h := performMutation_eq_ok_iff.mpr ⟨by decide, makes, hmakes, hsavable, rfl, rfl⟩
  refine ⟨_, _, h, ?_, (imported_of_performMutation h).1⟩
  obtain rfl := Except.ok.inj hmakes
  decide +kernel

/-- What is created of an order that is said to be fulfilled, and is not. -/
def unfulfilledOrder : OrderData where
  data := {
    order := some ⟨none⟩
    errors := [invalidStatusError]
    lines := [⟨some 1, 1, 2, 0⟩]
    fulfillments := [[]]
    isCriticalError := false }
  lineAmounts := [{
    totalGross := 10
    totalNet := 10
    unitGross := 5
    unitNet := 5
    undiscountedTotalGross := 10
    undiscountedTotalNet := 10
    undiscountedUnitGross := 5
    undiscountedUnitNet := 5
    unitDiscountAmount := 0
    quantity := 2
    taxRate := some 0 }]
  fields := some ⟨.fulfilled, ⟨5, 5, 10, 10, 10, 10, 0⟩⟩

/-- A line for ten that is shipped for five makes a total of ten, and with `IGNORE_FAILED` an order of
which nothing is fulfilled is created as fulfilled. -/
theorem consistent_not_always :
    ∃ db' final, performMutation BulkCreate.fiveInStock (fun _ _ => none)
        [shippedInput .fulfilled []] .ignoreFailed .update = .ok (db', final) ∧
      ∃ order ∈ final, order.data.order.isSome = true ∧ ∃ fields, order.fields = some fields ∧
        fields.amounts.totalGross ≠
          (order.lineAmounts.map LineAmounts.totalGross).sum + fields.amounts.shippingPriceGross ∧
        ¬ StatusAgrees fields.status order.data.lines ∧ ¬ Consistent order fields := by
  have hmakes : createOrders BulkCreate.fiveInStock.orders (fun _ _ => none)
      [shippedInput .fulfilled []] (fun _ => none) = .ok [unfulfilledOrder] := by decide +kernel
  have hfinal : BulkCreate.finalOrders BulkCreate.fiveInStock .update
      (BulkCreate.handleErrorPolicy .ignoreFailed [unfulfilledOrder.data]) =
        [unfulfilledOrder.data] := by decide +kernel
  have hsavable : BulkCreate.Savable BulkCreate.fiveInStock
      (BulkCreate.finalOrders BulkCreate.fiveInStock .update
        (BulkCreate.handleErrorPolicy .ignoreFailed [unfulfilledOrder.data])) := by
    rw [BulkCreate.Savable]
    decide +kernel
  have htotal : (10 : ℚ) ≠ (unfulfilledOrder.lineAmounts.map LineAmounts.totalGross).sum + 5 := by
    decide +kernel
  have hstatus : ¬ StatusAgrees .fulfilled unfulfilledOrder.data.lines := by
    intro h
    have hline := h.fulfilled rfl ⟨some 1, 1, 2, 0⟩ (List.mem_singleton_self _)
    exact absurd hline (by decide)
  refine ⟨_, _, performMutation_eq_ok_iff.mpr ⟨by decide, _, hmakes, hsavable, rfl, rfl⟩,
    unfulfilledOrder, ?_, rfl, _, rfl, htotal, hstatus, fun h => hstatus h.status⟩
  rw [List.map_singleton, hfinal]
  exact List.mem_singleton_self _

end BulkAmounts

end Aixinwu
