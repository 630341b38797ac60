import Aixinwu.Warehouse.Counter
import Aixinwu.Warehouse.Preorders

/-!
# Editing the lines of an order

The lines of draft and unconfirmed orders can be added to, changed and deleted. An unconfirmed order
has its items allocated, so that each of these changes allocations too: `increase_allocations` gives
up what a line has and allocates all of it anew, `decrease_allocations` takes items from what it
has. A draft has nothing allocated until it is completed.

Each request calls these operations for one line at a time. For one line what they do is plain
(`Changed`): its allocations hold another number of items, and the counters of the stocks follow, as
no stock is met twice.

## What is a parameter

The columns of orders that are only read, and what `validate_variants` and `validate_draft_order`
answer. Prices, the weight and the events are left out.

## Main definitions

* `orderLinesCreate`, `orderLineUpdate`, `orderLineDelete`, `draftOrderComplete`
* `step` — a request, which is rolled back if it raises
* `Changed` — only the allocations of one line change

## Main results

* `changed_allocateStocks`, `changed_increaseAllocations`, `changed_decreaseAllocations`
-/

namespace Aixinwu

namespace Stocks

namespace Editing

/-! ### Orders and their lines -/

/-- What the tables of stocks do not have of an order. -/
structure OrderColumns where
  channel : Channel
  /-- The country of the shipping address, if there is one. -/
  shippingCountry : Option String

/-- The tables, and the quantity of each line. -/
structure State where
  db : Db
  quantity : ℕ → ℤ

/-- An entry of a `ValidationError`, with its `params`. -/
structure ErrorEntry where
  field : Option String
  message : String
  code : String
  variants : List ℕ := []
  orderLine : Option ℕ := none
  warehouse : Option ℕ := none
deriving DecidableEq, Repr

/-- What a request raises. -/
inductive EditError where
  | doesNotExist
  | validation (entries : List ErrorEntry)
  | raised (e : AllocateError)
deriving DecidableEq, Repr

/-- `EditableOrderValidationMixin.validate_order`. -/
def validateOrder (db : Db) (order : ℕ) : Except EditError Order :=
  match db.orders.find? order with
  | none => .error .doesNotExist
  | some o =>
    if o.status = .draft ∨ o.status = .unconfirmed then .ok o
    else .error (.validation [{
      field := some "id"
      message := "Only draft and unconfirmed orders can be edited."
      code := "NOT_EDITABLE" }])

/-- The variant of a line. -/
def variantOf (db : Db) (l : OrderLine) : Option ProductVariant := l.variant.bind db.variants.find?

/-- The variant has stock allocated. -/
def tracks (now : Time) (v : ProductVariant) : Bool := v.trackInventory && !v.isPreorderActive now

/-! ### Changing a line -/

section Changing

variable (columns : ℕ → OrderColumns) (o : Order) (now : Time)

/-- `increase_allocations` for a line of the order. -/
def increase (info : OrderLineInfo) (db : Db) : Except AllocateError Db :=
  increaseAllocations [info] (columns o.pk).shippingCountry (columns o.pk).channel now db

/-- `_update_allocations_for_line`. -/
def updateAllocationsForLine (info : OrderLineInfo) (oldQuantity newQuantity : ℤ) (db : Db) :
    Except AllocateError Db :=
  if oldQuantity = newQuantity then .ok db
  else if getOrderLinesWithTrackInventory now [info] = [] then .ok db
  else if oldQuantity < newQuantity then
    increase columns o now { info with quantity := newQuantity - oldQuantity } db
  else decreaseAllocations now [{ info with quantity := oldQuantity - newQuantity }] db

/-- `line.delete()`, with the rows that go with it. -/
def deleteLine (line : ℕ) (db : Db) : Db :=
  { db with
    orderLines := db.orderLines.delete fun l => decide (l.pk = line)
    allocations := db.allocations.delete fun a => decide (a.orderLine = line)
    preorderAllocations := db.preorderAllocations.delete fun a => decide (a.orderLine = line) }

/-- `delete_order_line`. -/
def deleteOrderLine (info : OrderLineInfo) (s : State) : Except AllocateError State :=
  if o.status = .unconfirmed then
    (decreaseAllocations now [info] s.db).map fun db => { s with db := deleteLine info.line db }
  else .ok { s with db := deleteLine info.line s.db }

/-- `change_order_line_quantity`. -/
def changeOrderLineQuantity (info : OrderLineInfo) (oldQuantity newQuantity : ℤ) (s : State) :
    Except AllocateError State :=
  if newQuantity ≠ 0 then
    let quantity := Function.update s.quantity info.line newQuantity
    if o.status = .unconfirmed then
      (updateAllocationsForLine columns o now info oldQuantity newQuantity s.db).map fun db =>
        { db, quantity }
    else .ok { s with quantity }
  else deleteOrderLine o now info s

/-- `OrderLineData`. -/
structure OrderLineData where
  variant : ProductVariant
  lineId : Option ℕ := none
  quantity : ℤ := 0

/-- The next key of a line. -/
def nextLine (db : Db) : ℕ := (db.orderLines.rows.map (·.pk)).foldr max 0 + 1

/-- `create_order_line`, without the allocation. -/
def createLine (data : OrderLineData) (s : State) : State :=
  { db := { s.db with
      orderLines := (s.db.orderLines.insert
        { pk := nextLine s.db, order := o.pk, variant := some data.variant.pk }).getD
          s.db.orderLines }
    quantity := Function.update s.quantity (nextLine s.db) data.quantity }

/-- The allocation of what is added to a line, which is for unconfirmed orders. -/
def allocateMore (line : ℕ) (data : OrderLineData) (s : State) : Except AllocateError State :=
  if o.status = .unconfirmed then
    (increase columns o now { line, quantity := data.quantity, variant := some data.variant }
      s.db).map fun db => { s with db }
  else .ok s

/-- `add_variant_to_order`. -/
def addVariantToOrder (s : State) (data : OrderLineData) : Except AllocateError State :=
  match data.lineId with
  | some line =>
    -- without the variant, so that nothing is allocated here
    (changeOrderLineQuantity columns o now { line, quantity := s.quantity line } (s.quantity line)
      (s.quantity line + data.quantity) s).bind (allocateMore columns o now line data)
  | none => allocateMore columns o now (nextLine s.db) data (createLine o data s)

end Changing

/-! ### The lines that are asked for -/

/-- `OrderLineCreateInput`. -/
structure LineInput where
  variantId : ℕ
  quantity : ℤ
  forceNewLine : Bool := false

/-- `_find_line_id_for_variant_if_exist`. -/
def findLineIdForVariantIfExist (lines : List OrderLine) (variant : ℕ) : Option ℕ :=
  match lines.filter fun l => decide (l.variant = some variant) with
  | [l] => some l.pk
  | _ => none

/-- What `validate_lines` has gathered: the lines of their own, those by a line or a variant, and
the variants without a quantity. -/
structure Gathered where
  groupedLinesData : List OrderLineData := []
  linesDataMap : List ((ℕ ⊕ ℕ) × OrderLineData) := []
  invalidIds : List ℕ := []

/-- `lines_data_map[key]` gets some more. -/
def addData (key : ℕ ⊕ ℕ) (data : OrderLineData) :
    List ((ℕ ⊕ ℕ) × OrderLineData) → List ((ℕ ⊕ ℕ) × OrderLineData)
  | [] => [(key, data)]
  | e :: rest =>
    if e.1 = key then (key, { data with quantity := e.2.quantity + data.quantity }) :: rest
    else e :: addData key data rest

/-- The body of the loop of `validate_lines`. -/
def gatherLine (db : Db) (lines : List OrderLine) (g : Gathered) (input : LineInput) :
    Except EditError Gathered :=
  match db.variants.find? input.variantId with
  | none => .error (.raised .attributeError)
  | some variant =>
    if 0 < input.quantity then
      if input.forceNewLine || decide (1 < lines.countP fun l => l.variant = some variant.pk) then
        let data : OrderLineData := { variant, quantity := input.quantity }
        .ok { g with groupedLinesData := g.groupedLinesData ++ [data] }
      else
        let lineId := findLineIdForVariantIfExist lines variant.pk
        let data : OrderLineData := { variant, lineId, quantity := input.quantity }
        let key := lineId.elim (.inr variant.pk) .inl
        .ok { g with linesDataMap := addData key data g.linesDataMap }
    else .ok { g with invalidIds := g.invalidIds ++ [input.variantId] }

/-- `validate_lines`. -/
def validateLines (db : Db) (lines : List OrderLine) (data : List LineInput) :
    Except EditError (List OrderLineData) := do
  let g ← data.foldlM (gatherLine db lines) {}
  if g.invalidIds = [] then .ok (g.groupedLinesData ++ g.linesDataMap.map (·.2))
  else .error (.validation [{
    field := some "quantity"
    message := "Variants quantity must be greater than 0."
    code := "ZERO_QUANTITY"
    variants := g.invalidIds }])

/-! ### Requests -/

section Requests

variable (columns : ℕ → OrderColumns) (now : Time)

/-- `OrderLinesCreate`; `refused` is what `validate_variants` raises. -/
def orderLinesCreate (order : ℕ) (input : List LineInput) (refused : Option EditError) (s : State) :
    Except EditError State := do
  let o ← validateOrder s.db order
  let data ← validateLines s.db (s.db.orderLines.rows.filter (·.order = order)) input
  match refused with
  | some e => .error e
  | none => (data.foldlM (addVariantToOrder columns o now) s).mapError .raised

/-- The warehouse of the first allocation of a line, which is there or the code raises. -/
def warehouseOfLine (db : Db) (o : Order) (line : ℕ) : Except EditError (Option ℕ) :=
  if o.status = .unconfirmed then
    match db.allocations.rows.find? (·.orderLine = line) with
    | none => .error (.raised .attributeError)
    | some a => .ok ((db.stocks.find? a.stock).map (·.warehouse))
  else .ok none

/-- The errors of `OrderLineUpdate`. -/
def updateError : AllocateError → EditError
  | .insufficientStock _ =>
    .validation [{
      field := none
      message := "Cannot set new quantity because of insufficient stock."
      code := "INSUFFICIENT_STOCK" }]
  | e => .raised e

/-- `OrderLineUpdate`. -/
def orderLineUpdate (line : ℕ) (quantity : ℤ) (s : State) : Except EditError State :=
  match s.db.orderLines.find? line with
  | none => .error .doesNotExist
  | some l => do
    let o ← validateOrder s.db l.order
    if quantity ≤ 0 then
      .error (.validation [{
        field := some "quantity"
        message := "Ensure this value is greater than 0."
        code := "ZERO_QUANTITY" }])
    else
      let warehousePk ← warehouseOfLine s.db o line
      (changeOrderLineQuantity columns o now
        { line, quantity, variant := variantOf s.db l, warehousePk } (s.quantity line) quantity
        s).mapError updateError

/-- `OrderLineDelete`. -/
def orderLineDelete (line : ℕ) (s : State) : Except EditError State :=
  match s.db.orderLines.find? line with
  | none => .error .doesNotExist
  | some l => do
    let o ← validateOrder s.db l.order
    let warehousePk ← warehouseOfLine s.db o line
    (deleteOrderLine o now
      { line, quantity := s.quantity line, variant := variantOf s.db l, warehousePk } s).mapError
      .raised

/-- What completing a draft does for a line. -/
def allocateLine (o : Order) (checkReservations : Bool) (quantity : ℕ → ℤ) (db : Db)
    (l : OrderLine) : Except AllocateError Db :=
  match variantOf db l with
  | none => .ok db
  | some variant =>
    if variant.trackInventory || variant.isPreorderActive now then do
      let info : OrderLineInfo :=
        { line := l.pk, quantity := quantity l.pk, variant := some variant }
      let db ← allocateStocks {
        orderLinesInfo := [info]
        countryCode := o.country
        channel := (columns o.pk).channel
        checkReservations := checkReservations
        now := now } db
      allocatePreorders [info] (columns o.pk).channel.slug checkReservations none now db
    else .ok db

/-- `order.status = UNFULFILLED`. -/
def setUnfulfilled (order : ℕ) (db : Db) : Db :=
  { db with
    orders := db.orders.modify order (fun o => { o with status := .unfulfilled }) fun _ => rfl }

/-- The errors of `DraftOrderComplete`. -/
def completeError : AllocateError → EditError
  | .insufficientStock items => .validation (items.map fun item => {
      field := some "lines"
      message := "Insufficient product stock."
      code := "INSUFFICIENT_STOCK"
      orderLine := item.orderLine
      warehouse := item.warehousePk })
  | e => .raised e

/-- `DraftOrderComplete`; `refused` is what `validate_draft_order` raises. -/
def draftOrderComplete (order : ℕ) (refused : Option EditError) (checkReservations : Bool)
    (s : State) : Except EditError State :=
  match s.db.orders.find? order with
  | none => .error .doesNotExist
  | some o =>
    if o.status ≠ .draft then
      .error (.validation [{
        field := some "id"
        message := "The order is not draft."
        code := "INVALID" }])
    else match refused with
      | some e => .error e
      | none =>
        (((s.db.orderLines.rows.filter (·.order = order)).foldlM
          (allocateLine columns now o checkReservations s.quantity) (setUnfulfilled order s.db)).map
            fun db => { s with db }).mapError completeError

/-- The requests. -/
inductive Request where
  | linesCreate (order : ℕ) (input : List LineInput) (refused : Option EditError)
  | lineUpdate (line : ℕ) (quantity : ℤ)
  | lineDelete (line : ℕ)
  | draftComplete (order : ℕ) (refused : Option EditError) (checkReservations : Bool)

/-- What a request does. -/
def exec (s : State) : Request → Except EditError State
  | .linesCreate order input refused => orderLinesCreate columns now order input refused s
  | .lineUpdate line quantity => orderLineUpdate columns now line quantity s
  | .lineDelete line => orderLineDelete now line s
  | .draftComplete order refused check => draftOrderComplete columns now order refused check s

end Requests

/-- A request, with the time and the columns of the orders when it is made. -/
structure Call where
  request : Request
  now : Time
  columns : ℕ → OrderColumns

/-- A request that raises is rolled back. -/
def step (s : State) (c : Call) : State := (exec c.columns c.now s c.request).toOption.getD s

/-! ### What the operations on stocks do for a line -/

section Stocks

variable {db db' db'' : Db} {now : Time} {info : OrderLineInfo}

/-- The line has stock allocated. -/
def isTracked (now : Time) (info : OrderLineInfo) : Bool := info.variant.any (tracks now)

theorem getOrderLinesWithTrackInventory_one (now : Time) (info : OrderLineInfo) :
    getOrderLinesWithTrackInventory now [info] = if isTracked now info then [info] else [] := by
  rw [getOrderLinesWithTrackInventory, List.filter_cons, List.filter_nil]
  rfl

/-- **Only the allocations of one line change**, to so many items. Where the line is not tracked it
gets no rows. -/
structure Changed (tracked : Bool) (line : ℕ) (n : ℤ) (db db' : Db) : Prop where
  orders : db'.orders = db.orders
  orderLines : db'.orderLines = db.orderLines
  variants : db'.variants = db.variants
  allocated : ∀ k, allocatedTo db' k = if k = line then n else allocatedTo db k
  rows : ∀ a ∈ db'.allocations, (∃ b ∈ db.allocations, b.orderLine = a.orderLine) ∨
    (a.orderLine = line ∧ tracked)
  counted : Counted db → Counted db'

theorem Changed.refl (tracked : Bool) (line : ℕ) (db : Db) :
    Changed tracked line (allocatedTo db line) db db where
  orders := rfl
  orderLines := rfl
  variants := rfl
  allocated k := by
    split
    · rename_i hk
      rw [hk]
    · rfl
  rows a ha := .inl ⟨a, ha, rfl⟩
  counted h := h

/-- One change after another. -/
theorem Changed.trans {tracked : Bool} {line : ℕ} {n n' : ℤ} (h : Changed tracked line n db db')
    (h' : Changed tracked line n' db' db'') : Changed tracked line n' db db'' where
  orders := h'.orders.trans h.orders
  orderLines := h'.orderLines.trans h.orderLines
  variants := h'.variants.trans h.variants
  allocated k := by
    rw [h'.allocated, h.allocated]
    split <;> rfl
  rows a ha := by
    rcases h'.rows a ha with ⟨b, hb, heq⟩ | hline
    · rw [← heq]
      exact h.rows b hb
    · exact .inr hline
  counted hc := h'.counted (h.counted hc)

/-- `allocate_stocks` for one line. -/
theorem changed_allocateStocks {c : AllocateStocks} (hinfos : c.orderLinesInfo = [info])
    (hok : allocateStocks c db = .ok db') :
    Changed (isTracked c.now info) info.line
      (allocatedTo db info.line + if isTracked c.now info then info.quantity else 0) db db' := by
  have hone : c.infos = if isTracked c.now info then [info] else [] := by
    rw [AllocateStocks.infos, hinfos, getOrderLinesWithTrackInventory_one]
  by_cases htracked : isTracked c.now info
  · rw [if_pos htracked] at hone ⊢
    have honce : c.VariantsOnce := by
      rw [AllocateStocks.VariantsOnce, hone]
      exact List.nodup_singleton _
    have hcounted : Counted db → Counted db' := fun h => counted_allocateStocks h honce hok
    rcases allocateStocks_eq_ok hok with ⟨hnil, -⟩ | ⟨sorted, t, hsorted, hall, hrows, rfl⟩
    · rw [hone] at hnil
      cases hnil
    · refine ⟨rfl, rfl, rfl, fun k => ?_, fun a ha => ?_, hcounted⟩
      · rw [allocatedTo_allocateStocks hall hrows, hone, sumIf_cons, sumIf_nil, add_zero]
        by_cases hk : k = info.line
        · subst hk
          rw [if_pos rfl, if_pos (decide_eq_true rfl)]
        · rw [if_neg hk, if_neg (by simpa using Ne.symm hk), add_zero]
      · rw [Table.mem_def, hrows, hone, List.flatMap_singleton] at ha
        rcases List.mem_append.mp ha with ha | ha
        · exact .inl ⟨a, ha, rfl⟩
        · have hitems := hall info (hone ▸ List.mem_singleton_self _)
          obtain ⟨-, -, heq⟩ := fillFromStocks_eq_filled (create_eq.symm.trans hitems)
          rw [heq] at ha
          obtain ⟨e, -, rfl⟩ := List.mem_map.mp ha
          exact .inr ⟨rfl, htracked⟩
  · rw [if_neg htracked] at hone ⊢
    rw [allocateStocks, if_pos hone] at hok
    obtain rfl := Except.ok.inj hok
    rw [add_zero]
    exact Changed.refl _ _ _

/-- `increase_allocations` gives up what the line has. -/
theorem changed_deleteAllocations (tracked : Bool) (db : Db) (line : ℕ) :
    Changed tracked line 0 db (deleteAllocations [line] db) where
  orders := rfl
  orderLines := rfl
  variants := rfl
  allocated k := by
    have hrows : (deleteAllocations [line] db).allocations.rows
        = db.allocations.rows.filter fun a => !decide (a.orderLine ∈ [line]) := rfl
    rw [allocatedTo, hrows, sumIf_filter]
    by_cases hk : k = line
    · subst hk
      rw [if_pos rfl]
      refine sumIf_eq_zero fun a _ ha => ?_
      simp at ha
    · rw [if_neg hk]
      refine sumIf_congr (fun a _ => ?_) fun _ _ _ => rfl
      by_cases ha : a.orderLine = k
      · simp [ha, hk]
      · simp [ha]
  rows a ha := .inl ⟨a, List.mem_of_mem_filter ha, rfl⟩
  counted h := by
    refine counted_deleteAllocations h fun stock => ?_
    refine Keyed.firstAt_eq_sumAt_iff.mp (Keyed.firstAt_eq_sumAt_of_nodup ?_ stock)
    rw [deletedIncrements, List.map_map]
    refine (db.allocations.nodup.of_map.filter _).map_on fun a ha b hb hstock => ?_
    obtain ⟨ha, haline⟩ := List.mem_filter.mp ha
    obtain ⟨hb, hbline⟩ := List.mem_filter.mp hb
    have heq : a.orderLine = b.orderLine := by
      rw [List.mem_singleton.mp (of_decide_eq_true haline),
        List.mem_singleton.mp (of_decide_eq_true hbline)]
    exact Table.eq_of_pk_eq ha hb (Prod.ext heq hstock)

/-- `increase_allocations` for one line. -/
theorem changed_increaseAllocations {countryCode : Option String} {channel : Channel}
    (hok : increaseAllocations [info] countryCode channel now db = .ok db') :
    Changed (isTracked now info) info.line
      (if isTracked now info then allocatedTo db info.line + info.quantity else 0) db db' := by
  rw [increaseAllocations.eq_def] at hok
  split at hok
  · cases hok
  · cases hok
  · have hgiven := changed_deleteAllocations (isTracked now info) db info.line
    have hinfos : increasedInfos [info] db =
        [{ info with quantity := info.quantity + allocatedTo db info.line }] := rfl
    have hallocated := changed_allocateStocks hinfos hok
    refine hgiven.trans ?_
    have hzero : allocatedTo (deleteAllocations ([info].map (·.line)) db) info.line = 0 :=
      (hgiven.allocated info.line).trans (if_pos rfl)
    rw [hzero, zero_add] at hallocated
    have hquantity : (if isTracked now info then allocatedTo db info.line + info.quantity else 0)
        = if isTracked now info then info.quantity + allocatedTo db info.line else 0 := by
      rw [add_comm]
    rw [hquantity]
    exact hallocated

/-- The allocations of a line give to a demand what they hold, at most. -/
theorem allocatedTo_deallocateStock (infos : List OrderLineInfo) (line : ℕ) :
    allocatedTo (deallocateStock infos db).1 line
      = allocatedTo db line - min (askedFor infos line) (allocatedTo db line) := by
  have htaken : sumIf (fun a => decide (a.orderLine = line))
      (fun a : Allocation => Keyed.sumAt (HasPk.pk a) (takenBy db infos)) db.allocations.rows
      = min (askedFor infos line) (allocatedTo db line) := by
    rw [← held_lineToAllocations, ← Greedy.sum_share ((ofLines_lineToAllocations db).nodup line)
      (askedFor_nonneg infos line), sumIf]
    refine ((orderBy_perm (fun a : Allocation => a.stock) _).symm.map _).sum_eq.trans ?_
    refine congrArg List.sum (List.map_congr_left fun a ha => ?_)
    obtain ⟨hmem, hline⟩ := mem_lineToAllocations.mp ha
    rw [sumAt_takenBy infos hmem, hline]
  calc allocatedTo (deallocateStock infos db).1 line
      = sumIf (fun a => decide (a.orderLine = line)) (fun a : Allocation =>
          (((a.quantityAllocated - Keyed.sumAt (HasPk.pk a) (takenBy db infos)).toNat : ℕ) : ℤ))
          db.allocations.rows := sumIf_map ..
    _ = sumIf (fun a => decide (a.orderLine = line)) (fun a : Allocation =>
          a.quantityAllocated - Keyed.sumAt (HasPk.pk a) (takenBy db infos))
          db.allocations.rows := by
        refine sumIf_congr (fun _ _ => rfl) fun a ha _ => Int.toNat_of_nonneg ?_
        exact sub_nonneg.mpr (sumAt_takenBy_le infos ha)
    _ = allocatedTo db line - _ := sumIf_sub ..
    _ = _ := by rw [htaken]

/-- The allocations of one line are in different stocks. -/
theorem drawnOnce_one (db : Db) (info : OrderLineInfo) : DrawnOnce db [info] := by
  rw [DrawnOnce, drawnStocks, drawnStocks, List.append_nil]
  have hof := ofLines_lineToAllocations db
  refine ((hof.nodup info.line).filter _).map_on fun a ha b hb hstock => ?_
  exact hof.eq_of_stock (List.mem_of_mem_filter ha) (List.mem_of_mem_filter hb) hstock

/-- `decrease_allocations` for one line, of items that it has. -/
theorem changed_decreaseAllocations (hquantity : isTracked now info → 0 ≤ info.quantity ∧
      info.quantity ≤ allocatedTo db info.line)
    (hok : decreaseAllocations now [info] db = .ok db') :
    Changed (isTracked now info) info.line
      (allocatedTo db info.line - if isTracked now info then info.quantity else 0) db db' := by
  have hinfos := getOrderLinesWithTrackInventory_one now info
  have hcounted : Counted db → Counted db' := by
    refine fun h => counted_decreaseAllocations h ?_ ?_ hok
    · rw [hinfos]
      split
      · exact drawnOnce_one db info
      · exact List.nodup_nil
    · rw [hinfos]
      split
      · rename_i htracked
        intro i hi hneg
        rw [List.mem_singleton.mp hi] at hneg
        exact absurd hneg (not_lt.mpr (hquantity htracked).1)
      · exact nofun
  by_cases htracked : isTracked now info
  · obtain ⟨hnonneg, hle⟩ := hquantity htracked
    rw [if_pos htracked] at hinfos ⊢
    rw [decreaseAllocations, hinfos, if_neg (List.cons_ne_nil _ _), decreaseStock] at hok
    dsimp only at hok
    rw [if_neg Bool.false_ne_true, zeroAllocations_deallocateStock] at hok
    · obtain rfl := Except.ok.inj hok
      refine ⟨rfl, rfl, rfl, fun k => ?_, fun a ha => ?_, hcounted⟩
      · rw [allocatedTo_deallocateStock, askedFor_cons]
        by_cases hk : k = info.line
        · subst hk
          rw [if_pos rfl, if_pos rfl, askedFor, sumIf_nil, add_zero]
          omega
        · have hnone : 0 ≤ allocatedTo db k := sumIf_nonneg fun _ _ => Int.natCast_nonneg _
          rw [if_neg (Ne.symm hk), if_neg hk, askedFor, sumIf_nil]
          omega
      · obtain ⟨b, hb, rfl⟩ := List.mem_map.mp ha
        exact .inl ⟨b, hb, rfl⟩
    · intro i hi hneg
      rw [List.mem_singleton.mp hi] at hneg
      exact absurd hneg (not_lt.mpr hnonneg)
  · rw [if_neg htracked] at hinfos ⊢
    rw [decreaseAllocations, hinfos, if_pos rfl] at hok
    obtain rfl := Except.ok.inj hok
    rw [sub_zero]
    exact Changed.refl _ _ _

end Stocks

end Editing

end Stocks

end Aixinwu
