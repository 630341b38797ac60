import Aixinwu.Warehouse.Oversell
import Mathlib

/-!
# Taking allocations back, and stocks up and down

The other operations of `saleor/warehouse/management.py` that write allocations: they deallocate
items of lines or of whole orders, put items into a stock or take them out, replace the allocations
of a line by larger ones, and turn the allocations of a preorder into allocations of stocks.

## Instances

Each row of a query has an instance of its own, also of the stock it refers to. Where the same line
is deallocated twice in one call its allocations are read once, so the second time meets the
instances of the first: the quantity of the allocation has gone down in memory, and the expression
that is assigned to the stock's counter replaces the one assigned before. A batch that updates
counters has one `WHEN` for each instance, and the first of a stock wins.

## What is deliberately absent

The webhooks about stocks that run out or come back.

## Main definitions

* `deallocateStock`, `decreaseStock`, `decreaseAllocations`
* `increaseStock`, `increaseAllocations`
* `deallocateStockForOrder`, `deallocateStockForOrders`
* `deactivatePreorderForVariant`
-/

namespace Aixinwu

namespace Stocks

/-! ### Deallocating lines -/

/-- The allocations of a line in the order of their stocks. -/
def lineToAllocations (db : Db) (line : ℕ) : List Allocation :=
  orderBy (·.stock) (db.allocations.rows.filter (·.orderLine = line))

/-- The quantity of an allocation. -/
def quantityOf (db : Db) (k : ℕ × ℕ) : ℤ :=
  ((db.allocations.find? k).map fun a => (a.quantityAllocated : ℤ)).getD 0

/-- The loop over the allocations of a line, whose instances hold `held`: what is taken from each,
and how much it is altogether. -/
def deallocateLine (quantity : ℤ) (held : ℕ × ℕ → ℤ) :
    ℤ → List Allocation → List ((ℕ × ℕ) × ℤ) × ℤ
  | quantityDeallocated, [] => ([], quantityDeallocated)
  | quantityDeallocated, a :: allocations =>
    let quantityToDeallocate := min (quantity - quantityDeallocated) (held (HasPk.pk a))
    if 0 < quantityToDeallocate then
      let quantityDeallocated := quantityDeallocated + quantityToDeallocate
      if quantityDeallocated = quantity then
        ([(HasPk.pk a, quantityToDeallocate)], quantityDeallocated)
      else
        let (taken, total) := deallocateLine quantity held quantityDeallocated allocations
        ((HasPk.pk a, quantityToDeallocate) :: taken, total)
    else deallocateLine quantity held quantityDeallocated allocations

/-- The loop over the lines: what is taken, in order, and the lines that are not deallocated. -/
def deallocateLines (allocations : ℕ → List Allocation) :
    (ℕ × ℕ → ℤ) → List OrderLineInfo → List ((ℕ × ℕ) × ℤ) × List ℕ
  | _, [] => ([], [])
  | held, info :: infos =>
    let (taken, total) := deallocateLine info.quantity held 0 (allocations info.line)
    let (rest, notDeallocated) :=
      deallocateLines allocations (fun k => held k - Keyed.sumAt k taken) infos
    (taken ++ rest, if total = info.quantity then notDeallocated else info.line :: notDeallocated)

/-- Take from the allocations what is taken from their instances. -/
def takeFromAllocations (allocations : Table Allocation) (taken : List ((ℕ × ℕ) × ℤ)) :
    Table Allocation :=
  allocations.map (fun a => { a with
    quantityAllocated := (a.quantityAllocated - Keyed.sumAt (HasPk.pk a) taken).toNat })
    fun _ => rfl

/-- `deallocate_stock`: the writes, and the lines it raises `AllocationError` with. It raises after
it has written, and it has no transaction of its own. -/
def deallocateStock (infos : List OrderLineInfo) (db : Db) : Db × List ℕ :=
  let (taken, notDeallocated) := deallocateLines (lineToAllocations db) (quantityOf db) infos
  ({ db with
      allocations := takeFromAllocations db.allocations taken
      -- an instance that occurs twice carries what was assigned to it last
      stocks := addToQuantityAllocated db.stocks
        (taken.map fun e => (e.1.2, -Keyed.lastAt e.1 taken)) }, notDeallocated)

/-! ### Taking items out of stocks -/

/-- `Allocation.objects.filter(order_line__in=lines).update(quantity_allocated=0)`. -/
def zeroAllocations (lines : List ℕ) (db : Db) : Db :=
  { db with
    allocations := db.allocations.map
      (fun a => if a.orderLine ∈ lines then { a with quantityAllocated := 0 } else a)
      fun a => by split <;> rfl }

/-- `variant_and_warehouse_to_stock`, for a line. -/
def stockOfLine (stocks : List Stock) (info : OrderLineInfo) :
    Except AllocateError (Option Stock) :=
  match info.warehousePk, info.variant with
  | none, _ => .ok none
  | some _, none => .error .attributeError
  | some warehouse, some variant =>
    .ok ((stocks.filter fun s =>
      s.productVariant = variant.pk && s.warehouse = warehouse).getLast?)

/-- The loop of `_decrease_stocks_quantity` over instances of stocks that hold `held`. -/
def decreaseStocksQuantityLoop (stocks : List Stock) (allocated : ℕ → ℤ)
    (allowStockToBeExceeded : Bool) :
    (ℕ → ℤ) → List OrderLineInfo → Except AllocateError ((ℕ → ℤ) × List InsufficientStockData)
  | held, [] => .ok (held, [])
  | held, info :: infos =>
    let insufficient : InsufficientStockData := {
      availableQuantity := 0
      variant := info.variant
      orderLine := some info.line
      warehousePk := info.warehousePk }
    let rest := fun held =>
      decreaseStocksQuantityLoop stocks allocated allowStockToBeExceeded held infos
    match stockOfLine stocks info with
    | .error e => .error e
    | .ok none =>
      if allowStockToBeExceeded then rest held
      else (rest held).map fun r => (r.1, insufficient :: r.2)
    | .ok (some s) =>
      if held s.pk - allocated s.pk < info.quantity && !allowStockToBeExceeded then
        (rest held).map fun r => (r.1, insufficient :: r.2)
      else rest (Function.update held s.pk (held s.pk - info.quantity))

/-- `_decrease_stocks_quantity`. -/
def decreaseStocksQuantity (stocks : List Stock) (infos : List OrderLineInfo) (allocated : ℕ → ℤ)
    (allowStockToBeExceeded : Bool) (db : Db) : Except AllocateError Db :=
  let held := fun pk => ((db.stocks.find? pk).map (·.quantity)).getD 0
  match decreaseStocksQuantityLoop stocks allocated allowStockToBeExceeded held infos with
  | .error e => .error e
  | .ok (_, item :: items) => .error (.insufficientStock (item :: items))
  | .ok (held, []) =>
    .ok { db with
      stocks := db.stocks.map (fun s => { s with quantity := held s.pk }) fun _ => rfl }

/-- `decrease_stock`; what it writes is written only if it does not raise. -/
def decreaseStock (infos : List OrderLineInfo) (updateStocks allowStockToBeExceeded : Bool)
    (db : Db) : Except AllocateError Db :=
  let (db, notDeallocated) := deallocateStock infos db
  let db := zeroAllocations notDeallocated db
  if updateStocks then
    let stocks := stocksOfLines db infos
    decreaseStocksQuantity stocks infos (quantityAllocationForStocks db (stocks.map (·.pk)))
      allowStockToBeExceeded db
  else .ok db

/-- `decrease_allocations`. -/
def decreaseAllocations (now : Time) (infos : List OrderLineInfo) (db : Db) :
    Except AllocateError Db :=
  let trackedLines := getOrderLinesWithTrackInventory now infos
  if trackedLines = [] then .ok db
  else decreaseStock trackedLines false false db

/-! ### Putting items into stocks -/

/-- The next key of a stock. -/
def nextStockPk (db : Db) : ℕ := (db.stocks.rows.map (·.pk)).foldr max 0 + 1

/-- The stock of a variant in a warehouse. -/
def findStock (db : Db) (warehouse variant : ℕ) : Option Stock :=
  db.stocks.rows.find? fun s => s.warehouse = warehouse && s.productVariant = variant

/-- `stock.increase_stock(quantity)` for the stock of a variant in a warehouse, which is created if
it does not exist. -/
def increaseOrCreateStock (warehouse variant : ℕ) (quantity : ℤ) (db : Db) :
    Option (ℕ × Table Stock) :=
  match findStock db warehouse variant with
  | some s =>
    some (s.pk, db.stocks.modify s.pk (fun t => { t with quantity := t.quantity + quantity })
      fun _ => rfl)
  | none =>
    (db.stocks.insert {
      pk := nextStockPk db
      warehouse := warehouse
      productVariant := variant
      quantity := quantity }).map fun t => (nextStockPk db, t)

/-- The allocation of a line in a stock goes up by `quantity`, or is created with it; its column
takes no negative number. -/
def increaseOrCreateAllocation (line stock : ℕ) (quantity : ℤ) (allocations : Table Allocation) :
    Option (Table Allocation) :=
  match allocations.find? (line, stock) with
  | some a =>
    if 0 ≤ a.quantityAllocated + quantity then
      some (allocations.modify (line, stock)
        (fun b => { b with quantityAllocated := (b.quantityAllocated + quantity).toNat })
        fun _ => rfl)
    else none
  | none =>
    if 0 ≤ quantity then
      allocations.insert {
        orderLine := line
        stock := stock
        quantityAllocated := quantity.toNat }
    else none

/-- `increase_stock`, for a line with its variant. -/
def increaseStock (line : ℕ) (variant : Option ℕ) (warehouse : ℕ) (quantity : ℤ)
    (allocate : Bool) (db : Db) : Except AllocateError Db :=
  match variant with
  | none => .error .assertionError
  | some variant =>
    match increaseOrCreateStock warehouse variant quantity db with
    | none => .error .integrityError
    | some (stock, stocks) =>
      if allocate then
        match increaseOrCreateAllocation line stock quantity db.allocations with
        | none => .error .integrityError
        | some allocations =>
          .ok { db with
            allocations := allocations
            stocks := stocks.modify stock
              (fun s => { s with quantityAllocated := s.quantityAllocated + quantity })
              fun _ => rfl }
      else .ok { db with stocks := stocks }

/-- The allocations of some lines, deleted from the table and taken off the counters. -/
def deleteAllocations (lines : List ℕ) (db : Db) : Db :=
  { db with
    allocations := db.allocations.delete (·.orderLine ∈ lines)
    stocks := addToQuantityAllocated db.stocks
      ((db.allocations.rows.filter (·.orderLine ∈ lines)).map
        fun a => (a.stock, -(a.quantityAllocated : ℤ))) }

/-- What the lines of `increase_allocations` are allocated: what they have, and what is added. -/
def increasedInfos (infos : List OrderLineInfo) (db : Db) : List OrderLineInfo :=
  infos.map fun info => { info with quantity := info.quantity + allocatedTo db info.line }

/-- `increase_allocations`; `countryCode` is the country the order of the first line is shipped to,
if it has a shipping address. -/
def increaseAllocations (infos : List OrderLineInfo) (countryCode : Option String)
    (channel : Channel) (now : Time) (db : Db) : Except AllocateError Db :=
  match infos, countryCode with
  | [], _ => .error .indexError
  | _, none => .error .attributeError
  | infos, some countryCode =>
    allocateStocks {
      orderLinesInfo := increasedInfos infos db
      countryCode := countryCode
      channel := channel
      now := now } (deleteAllocations (infos.map (·.line)) db)

/-! ### Deallocating orders -/

/-- The allocations of some lines go down to zero, and off the counters. -/
def deallocateAll (ofLine : ℕ → Bool) (db : Db) : Db :=
  { db with
    allocations := db.allocations.map
      (fun a => if ofLine a.orderLine then { a with quantityAllocated := 0 } else a)
      fun a => by split <;> rfl
    stocks := addToQuantityAllocated db.stocks
      ((db.allocations.rows.filter fun a => ofLine a.orderLine && decide (0 < a.quantityAllocated)).map
        fun a => (a.stock, -(a.quantityAllocated : ℤ))) }

/-- A line of an order. -/
def isLineOfOrder (db : Db) (order : ℕ) (line : ℕ) : Bool :=
  (db.orderLines.find? line).any (·.order = order)

/-- `deallocate_stock_for_order`. -/
def deallocateStockForOrder (order : ℕ) (db : Db) : Db := deallocateAll (isLineOfOrder db order) db

/-- A line of one of the orders that `deallocate_stock_for_orders` deallocates: of an unconfirmed
order, or of an unfulfilled one if its variant goes back. -/
def isLineOfOrders (db : Db) (orders : List ℕ) (line : ℕ) : Bool :=
  (db.orderLines.find? line).any fun l =>
    decide (l.order ∈ orders) && (db.orders.find? l.order).any fun o =>
      (o.status = .unfulfilled && (l.variant.bind db.variants.find?).any (·.returnOnCancel))
        || o.status = .unconfirmed

/-- `deallocate_stock_for_orders`. -/
def deallocateStockForOrders (orders : List ℕ) (db : Db) : Db :=
  deallocateAll (isLineOfOrders db orders) db

/-! ### Ending a preorder -/

/-- The warehouse of `_get_stock_for_preorder_allocation`. -/
def warehouseForPreorderAllocation (db : Db) (line : ℕ) : Option Warehouse :=
  match (db.orderLines.find? line).bind fun l => db.orders.find? l.order with
  | none => none
  | some order =>
    match order.shippingZone with
    | some zone => db.warehouses.rows.find? fun w => zone ∈ w.shippingZones
    | none => db.warehouses.rows.find? fun w =>
      db.shippingZones.rows.any fun zone =>
        zone.pk ∈ w.shippingZones && order.country ∈ zone.countries

/-- The allocations of a preorder of a variant, in the order of their keys. -/
def preorderAllocationsOf (db : Db) (variant : ℕ) : List PreorderAllocation :=
  db.preorderAllocations.rows.filter fun a =>
    (db.channelListings.find? a.productVariantChannelListing).any (·.variant = variant)

/-- The loop of `deactivate_preorder_for_variant`: for each allocation its stock, an existing one or
a new one, which is given the next key. -/
def stocksForPreorderAllocations (db : Db) (variant : ℕ) :
    ℕ → List PreorderAllocation → Except AllocateError (List (PreorderAllocation × ℕ × Option Stock))
  | _, [] => .ok []
  | next, a :: allocations =>
    match warehouseForPreorderAllocation db a.orderLine with
    | none => .error (.preorderAllocation a.orderLine)
    | some warehouse =>
      match findStock db warehouse.pk variant with
      | some s =>
        (stocksForPreorderAllocations db variant next allocations).map fun rest =>
          (a, s.pk, none) :: rest
      | none =>
        (stocksForPreorderAllocations db variant (next + 1) allocations).map fun rest =>
          (a, next, some {
            pk := next
            warehouse := warehouse.pk
            productVariant := variant
            quantityAllocated := a.quantity }) :: rest

/-- `Stock.objects.bulk_create(stocks)`: the pair of warehouse and variant is unique. -/
def bulkCreateStocks (db : Db) (stocks : List Stock) : Option (Table Stock) :=
  if ((db.stocks.rows ++ stocks).map fun s => (s.warehouse, s.productVariant)).Nodup then
    db.stocks.insertAll stocks
  else none

/-- `deactivate_preorder_for_variant`. -/
def deactivatePreorderForVariant (variant : ProductVariant) (db : Db) : Except AllocateError Db :=
  if !variant.isPreorder then .ok db
  else
    let preorders := preorderAllocationsOf db variant.pk
    match stocksForPreorderAllocations db variant.pk (nextStockPk db) preorders with
    | .error e => .error e
    | .ok found =>
      match bulkCreateStocks db (found.filterMap (·.2.2)) with
      | none => .error .integrityError
      | some stocks =>
        match db.allocations.insertAll (found.map fun f => ⟨f.1.orderLine, f.2.1, f.1.quantity⟩) with
        | none => .error .integrityError
        | some allocations =>
          .ok { db with
            stocks := addToQuantityAllocated stocks
              ((found.filter (·.2.2 = none)).map fun f => (f.2.1, (f.1.quantity : ℤ)))
            allocations := allocations
            preorderAllocations := db.preorderAllocations.delete fun a =>
              (db.channelListings.find? a.productVariantChannelListing).any (·.variant = variant.pk)
            variants := db.variants.modify variant.pk (fun v => { v with
              isPreorder := false
              preorderEndDate := none
              preorderGlobalThreshold := none }) fun _ => rfl
            channelListings := db.channelListings.map
              (fun l => if l.variant = variant.pk then
                { l with preorderQuantityThreshold := none } else l)
              fun l => by split <;> rfl }

/-! ### What deallocating lines takes -/

/-- How many items of a line are asked for. -/
def askedFor (infos : List OrderLineInfo) (line : ℕ) : ℤ :=
  sumIf (fun info => decide (info.line = line)) (fun info => max info.quantity 0) infos

/-- What an allocation holds. -/
def itemsIn (a : Allocation) : ℤ := a.quantityAllocated

/-- The stocks that give items, where so many items of each line have been taken earlier: each line
asks for the next items of its allocations, and an allocation gives what it has of them. -/
def drawnStocks (allocations : ℕ → List Allocation) : (ℕ → ℤ) → List OrderLineInfo → List ℕ
  | _, [] => []
  | earlier, info :: infos =>
    let items := allocations info.line
    let asked := earlier info.line + max info.quantity 0
    ((items.filter fun a =>
        Greedy.share itemsIn (earlier info.line) a items < Greedy.share itemsIn asked a items).map
      (·.stock)) ++ drawnStocks allocations (Function.update earlier info.line asked) infos

theorem askedFor_cons (info : OrderLineInfo) (infos : List OrderLineInfo) (line : ℕ) :
    askedFor (info :: infos) line
      = (if info.line = line then max info.quantity 0 else 0) + askedFor infos line := by
  rw [askedFor, sumIf_cons]
  by_cases h : info.line = line <;> simp [askedFor, h]

theorem askedFor_nonneg (infos : List OrderLineInfo) (line : ℕ) : 0 ≤ askedFor infos line :=
  sumIf_nonneg fun _ _ => le_max_right _ _

/-- **The loop over the allocations of a line** takes the items from them, in order. -/
theorem deallocateLine_eq (quantity : ℤ) (held : ℕ × ℕ → ℤ) (quantityDeallocated : ℤ)
    (allocations : List Allocation) :
    deallocateLine quantity held quantityDeallocated allocations
      = ((Greedy.pour (fun a => held (HasPk.pk a)) (quantity - quantityDeallocated)
            allocations).1.map fun e => (HasPk.pk e.1, e.2),
          quantity - (Greedy.pour (fun a => held (HasPk.pk a)) (quantity - quantityDeallocated)
            allocations).2) := by
  induction allocations generalizing quantityDeallocated with
  | nil =>
    rw [deallocateLine, Greedy.pour_nil, List.map_nil, sub_sub_cancel]
  | cons a allocations ih =>
    rw [deallocateLine, Greedy.pour_cons]
    by_cases hpos : 0 < min (quantity - quantityDeallocated) (held (HasPk.pk a))
    · simp only [hpos, if_true]
      by_cases hall : quantityDeallocated + min (quantity - quantityDeallocated) (held (HasPk.pk a))
          = quantity
      · have hzero : quantity - quantityDeallocated
            - min (quantity - quantityDeallocated) (held (HasPk.pk a)) = 0 := by omega
        rw [if_pos hall, hzero, Greedy.pour_of_nonpos _ le_rfl, hall, sub_zero]
        rfl
      · have hrest : quantity
            - (quantityDeallocated + min (quantity - quantityDeallocated) (held (HasPk.pk a)))
            = quantity - quantityDeallocated
              - min (quantity - quantityDeallocated) (held (HasPk.pk a)) := by omega
        rw [if_neg hall, ih, hrest]
        rfl
    · simp only [hpos, if_false]
      exact ih quantityDeallocated

/-- The allocations of each line, each once. -/
structure OfLines (allocations : ℕ → List Allocation) : Prop where
  orderLine : ∀ {line a}, a ∈ allocations line → a.orderLine = line
  eq_of_stock : ∀ {line a b}, a ∈ allocations line → b ∈ allocations line →
    a.stock = b.stock → a = b
  nodup : ∀ line, (allocations line).Nodup

/-- The instances hold what has not been taken from them. -/
def Holds (allocations : ℕ → List Allocation) (earlier : ℕ → ℤ) (held : ℕ × ℕ → ℤ) : Prop :=
  ∀ line, ∀ a ∈ allocations line,
    held (HasPk.pk a) = itemsIn a - Greedy.share itemsIn (earlier line) a (allocations line)

section Lines

variable {allocations : ℕ → List Allocation} {earlier : ℕ → ℤ} {held : ℕ × ℕ → ℤ} {line : ℕ}

theorem pk_eq_iff (hof : OfLines allocations) {a b : Allocation} (ha : a ∈ allocations line)
    (hb : b ∈ allocations line) : HasPk.pk a = HasPk.pk b ↔ a = b :=
  ⟨fun h => hof.eq_of_stock ha hb (congrArg Prod.snd h), fun h => congrArg HasPk.pk h⟩

/-- What the instances of a line give to a further demand. -/
theorem share_held (hof : OfLines allocations) (hholds : Holds allocations earlier held)
    (hearlier : 0 ≤ earlier line) {a : Allocation} (ha : a ∈ allocations line) {more : ℤ}
    (hmore : 0 ≤ more) :
    Greedy.share (fun b => held (HasPk.pk b)) more a (allocations line)
      = Greedy.share itemsIn (earlier line + more) a (allocations line)
        - Greedy.share itemsIn (earlier line) a (allocations line) := by
  rw [← Greedy.share_rest (hof.nodup line) a hearlier hmore]
  exact Greedy.share_congr (fun b hb => hholds line b hb) ha more

/-- What is taken from an allocation of the line. -/
theorem sumAt_deallocateLine (hof : OfLines allocations) (hholds : Holds allocations earlier held)
    (hearlier : 0 ≤ earlier line) (quantity : ℤ) {a : Allocation} (ha : a ∈ allocations line) :
    Keyed.sumAt (HasPk.pk a) (deallocateLine quantity held 0 (allocations line)).1
      = Greedy.share itemsIn (earlier line + max quantity 0) a (allocations line)
        - Greedy.share itemsIn (earlier line) a (allocations line) := by
  have hgiven : ∀ e ∈ (Greedy.pour (fun b => held (HasPk.pk b)) quantity (allocations line)).1,
      e.1 ∈ allocations line := fun e he =>
    (Greedy.pour_sublist _ _).subset (List.mem_map_of_mem he)
  rw [← share_held hof hholds hearlier ha (le_max_right _ _),
    ← Greedy.givenBy_pour (hof.nodup line) ha (le_max_right _ _), Greedy.pour_max,
    deallocateLine_eq, sub_zero, Keyed.sumAt_map]
  exact sumIf_congr (fun e he => decide_eq_decide.mpr (pk_eq_iff hof (hgiven e he) ha))
    fun _ _ _ => rfl

/-- The stocks that give items to the line. -/
theorem stocks_deallocateLine (hof : OfLines allocations)
    (hholds : Holds allocations earlier held) (hearlier : 0 ≤ earlier line) (quantity : ℤ) :
    ((deallocateLine quantity held 0 (allocations line)).1.map (·.1.2)).Perm
      (((allocations line).filter fun a =>
        Greedy.share itemsIn (earlier line) a (allocations line)
          < Greedy.share itemsIn (earlier line + max quantity 0) a (allocations line)).map
        (·.stock)) := by
  have hnodup := hof.nodup line
  have hsub := @Greedy.pour_sublist Allocation (fun b => held (HasPk.pk b)) (max quantity 0)
    (allocations line)
  have hperm : ((Greedy.pour (fun b => held (HasPk.pk b)) (max quantity 0)
      (allocations line)).1.map (·.1)).Perm
      ((allocations line).filter fun a =>
        Greedy.share itemsIn (earlier line) a (allocations line)
          < Greedy.share itemsIn (earlier line + max quantity 0) a (allocations line)) := by
    refine (List.perm_ext_iff_of_nodup (hsub.nodup hnodup) (hnodup.filter _)).mpr fun a => ?_
    rw [List.mem_filter, decide_eq_true_iff]
    constructor
    · intro hmem
      have ha := hsub.subset hmem
      have hpos := (Greedy.mem_pour_iff hnodup ha (le_max_right _ _)).mp hmem
      rw [share_held hof hholds hearlier ha (le_max_right _ _)] at hpos
      exact ⟨ha, by omega⟩
    · rintro ⟨ha, hlt⟩
      refine (Greedy.mem_pour_iff hnodup ha (le_max_right _ _)).mpr ?_
      rw [share_held hof hholds hearlier ha (le_max_right _ _)]
      omega
  have hmap := hperm.map (·.stock)
  rw [Greedy.pour_max, List.map_map] at hmap
  rw [deallocateLine_eq, sub_zero, List.map_map]
  exact hmap

/-- What is taken for a line comes from its allocations. -/
theorem of_mem_deallocateLine {quantity : ℤ} {e : (ℕ × ℕ) × ℤ}
    (he : e ∈ (deallocateLine quantity held 0 (allocations line)).1) :
    0 < e.2 ∧ ∃ a ∈ allocations line, e.1 = HasPk.pk a := by
  rw [deallocateLine_eq] at he
  obtain ⟨g, hg, rfl⟩ := List.mem_map.mp he
  exact ⟨(Greedy.pour_le hg).1, g.1, (Greedy.pour_sublist _ _).subset (List.mem_map_of_mem hg), rfl⟩

/-- A line that is not deallocated has nothing left, unless it asks for less than nothing. -/
theorem held_le_of_not_deallocated (hof : OfLines allocations)
    (hholds : Holds allocations earlier held) (hearlier : 0 ≤ earlier line) {quantity : ℤ}
    (hquantity : 0 ≤ quantity)
    (h : (deallocateLine quantity held 0 (allocations line)).2 ≠ quantity) :
    Greedy.held itemsIn (allocations line) ≤ earlier line + quantity := by
  have hleft : Greedy.held (fun a => held (HasPk.pk a)) (allocations line)
      = Greedy.held itemsIn (allocations line)
        - min (earlier line) (Greedy.held itemsIn (allocations line)) := by
    rw [← Greedy.held_rest (hof.nodup line) hearlier]
    exact congrArg List.sum (List.map_congr_left fun a ha => congrArg (max · 0) (hholds line a ha))
  rw [deallocateLine_eq, sub_zero] at h
  have hrest : (Greedy.pour (fun a => held (HasPk.pk a)) quantity (allocations line)).2
      = max (quantity - Greedy.held (fun a => held (HasPk.pk a)) (allocations line)) 0 :=
    Greedy.pour_snd hquantity _
  rw [hrest, hleft] at h
  omega

/-- What is taken for a line leaves the other lines alone. -/
theorem sumAt_deallocateLine_of_ne (hof : OfLines allocations) {other : ℕ} (hne : other ≠ line)
    (quantity : ℤ) {a : Allocation} (ha : a ∈ allocations other) :
    Keyed.sumAt (HasPk.pk a) (deallocateLine quantity held 0 (allocations line)).1 = 0 := by
  refine Keyed.sumAt_of_not_mem fun hmem => hne ?_
  obtain ⟨e, he, hpk⟩ := List.mem_map.mp hmem
  obtain ⟨-, b, hb, heq⟩ := of_mem_deallocateLine he
  rw [← hof.orderLine ha, ← hof.orderLine hb]
  exact congrArg Prod.fst (hpk.symm.trans heq)

/-- The next demand meets instances that hold what is left. -/
theorem Holds.next (hof : OfLines allocations) (hholds : Holds allocations earlier held)
    (hearlier : 0 ≤ earlier line) (quantity : ℤ) :
    Holds allocations (Function.update earlier line (earlier line + max quantity 0))
      fun k => held k
        - Keyed.sumAt k (deallocateLine quantity held 0 (allocations line)).1 := by
  intro other a ha
  show held (HasPk.pk a)
    - Keyed.sumAt (HasPk.pk a) (deallocateLine quantity held 0 (allocations line)).1 = _
  by_cases hline : other = line
  · subst hline
    rw [Function.update_self, sumAt_deallocateLine hof hholds hearlier quantity ha,
      hholds other a ha]
    omega
  · rw [Function.update_of_ne hline, sumAt_deallocateLine_of_ne hof hline quantity ha, sub_zero,
      hholds other a ha]

/-- What a call takes from the allocations. -/
structure Deallocates (allocations : ℕ → List Allocation) (earlier : ℕ → ℤ)
    (infos : List OrderLineInfo) (r : List ((ℕ × ℕ) × ℤ) × List ℕ) : Prop where
  entries : ∀ e ∈ r.1, 0 < e.2 ∧ ∃ line, ∃ a ∈ allocations line, e.1 = HasPk.pk a
  stocks : (r.1.map (·.1.2)).Perm (drawnStocks allocations earlier infos)
  amounts : ∀ line, ∀ a ∈ allocations line, Keyed.sumAt (HasPk.pk a) r.1
    = Greedy.share itemsIn (earlier line + askedFor infos line) a (allocations line)
      - Greedy.share itemsIn (earlier line) a (allocations line)
  notDeallocated : ∀ line ∈ r.2, (∃ info ∈ infos, info.line = line ∧ info.quantity < 0) ∨
    Greedy.held itemsIn (allocations line) ≤ earlier line + askedFor infos line

/-- **What a call takes**: each line its next items, from its allocations in order. -/
theorem deallocateLines_deallocates (hof : OfLines allocations) (infos : List OrderLineInfo)
    (hearlier : ∀ line, 0 ≤ earlier line) (hholds : Holds allocations earlier held) :
    Deallocates allocations earlier infos (deallocateLines allocations held infos) := by
  induction infos generalizing earlier held with
  | nil =>
    refine ⟨nofun, List.Perm.nil, fun line a _ => ?_, nofun⟩
    rw [askedFor, sumIf_nil, add_zero, sub_self]
    rfl
  | cons info infos ih =>
    have hnext : ∀ line, 0 ≤ Function.update earlier info.line
        (earlier info.line + max info.quantity 0) line := by
      intro line
      by_cases h : line = info.line
      · subst h
        rw [Function.update_self]
        exact add_nonneg (hearlier _) (le_max_right _ _)
      · rw [Function.update_of_ne h]
        exact hearlier line
    have hasked : ∀ line, Function.update earlier info.line
        (earlier info.line + max info.quantity 0) line + askedFor infos line
        = earlier line + askedFor (info :: infos) line := by
      intro line
      rw [askedFor_cons]
      by_cases h : info.line = line
      · subst h
        rw [Function.update_self, if_pos rfl, add_assoc]
      · rw [Function.update_of_ne (Ne.symm h), if_neg h, zero_add]
    have hrest := ih hnext (hholds.next hof (hearlier info.line) info.quantity)
    rw [deallocateLines]
    refine ⟨?_, ?_, ?_, ?_⟩
    · intro e he
      rcases List.mem_append.mp he with he | he
      · obtain ⟨hpos, a, ha, hpk⟩ := of_mem_deallocateLine he
        exact ⟨hpos, info.line, a, ha, hpk⟩
      · exact hrest.entries e he
    · rw [List.map_append, drawnStocks]
      exact (stocks_deallocateLine hof hholds (hearlier info.line) info.quantity).append hrest.stocks
    · intro line a ha
      have hmore := hrest.amounts line a ha
      rw [hasked] at hmore
      rw [Keyed.sumAt_append, hmore]
      by_cases h : line = info.line
      · subst h
        rw [Function.update_self,
          sumAt_deallocateLine hof hholds (hearlier info.line) info.quantity ha]
        omega
      · rw [Function.update_of_ne h, sumAt_deallocateLine_of_ne hof h info.quantity ha, zero_add]
    · intro line hline
      have hlater : line ∈ (deallocateLines allocations (fun k => held k
            - Keyed.sumAt k (deallocateLine info.quantity held 0 (allocations info.line)).1) infos).2 →
          (∃ i ∈ info :: infos, i.line = line ∧ i.quantity < 0) ∨
            Greedy.held itemsIn (allocations line)
              ≤ earlier line + askedFor (info :: infos) line := by
        intro hmem
        rw [← hasked]
        rcases hrest.notDeallocated line hmem with ⟨i, hi, hneg⟩ | hle
        · exact .inl ⟨i, List.mem_cons_of_mem info hi, hneg⟩
        · exact .inr hle
      dsimp only at hline
      split at hline
      · exact hlater hline
      · rename_i hne
        rcases List.mem_cons.mp hline with rfl | hmem
        · rcases lt_or_ge info.quantity 0 with hneg | hnonneg
          · exact .inl ⟨info, List.mem_cons_self, rfl, hneg⟩
          · have hle := held_le_of_not_deallocated hof hholds (hearlier info.line) hnonneg hne
            have hasks := askedFor_nonneg infos info.line
            rw [askedFor_cons, if_pos rfl, max_eq_left hnonneg]
            exact .inr (by omega)
        · exact hlater hmem

end Lines

/-! ### What deallocating lines writes -/

variable {db : Db}

theorem mem_lineToAllocations {line : ℕ} {a : Allocation} :
    a ∈ lineToAllocations db line ↔ a ∈ db.allocations ∧ a.orderLine = line := by
  rw [lineToAllocations, mem_orderBy, List.mem_filter, decide_eq_true_iff]
  rfl

/-- The allocations of the lines in the tables. -/
theorem ofLines_lineToAllocations (db : Db) : OfLines (lineToAllocations db) where
  orderLine := fun ha => (mem_lineToAllocations.mp ha).2
  eq_of_stock := by
    intro line a b ha hb hstock
    obtain ⟨ha, hline⟩ := mem_lineToAllocations.mp ha
    obtain ⟨hb, hline'⟩ := mem_lineToAllocations.mp hb
    exact Table.eq_of_pk_eq ha hb (Prod.ext (hline.trans hline'.symm) hstock)
  nodup := fun _ => (orderBy_perm _ _).nodup_iff.mpr (db.allocations.nodup.of_map.filter _)

theorem quantityOf_pk {a : Allocation} (ha : a ∈ db.allocations) :
    quantityOf db (HasPk.pk a) = itemsIn a := by
  rw [quantityOf, Table.mem_iff_find?.mp ha]
  rfl

theorem share_zero (a : Allocation) (items : List Allocation) :
    Greedy.share itemsIn 0 a items = 0 := by
  have hbefore : 0 ≤ Greedy.before itemsIn a items := Greedy.before_nonneg a items
  rw [Greedy.share]
  omega

/-- **What `deallocate_stock` takes** from the tables. -/
theorem deallocates_lineToAllocations (db : Db) (infos : List OrderLineInfo) :
    Deallocates (lineToAllocations db) (fun _ => 0) infos
      (deallocateLines (lineToAllocations db) (quantityOf db) infos) := by
  refine deallocateLines_deallocates (ofLines_lineToAllocations db) infos (fun _ => le_rfl) ?_
  intro line a ha
  rw [quantityOf_pk (mem_lineToAllocations.mp ha).1, share_zero, sub_zero]

/-- What the allocations of a line hold. -/
theorem held_lineToAllocations (db : Db) (line : ℕ) :
    Greedy.held itemsIn (lineToAllocations db line) = allocatedTo db line := by
  have hmax : (fun a : Allocation => max (itemsIn a) 0) = itemsIn := by
    funext a
    exact max_eq_left (Int.natCast_nonneg _)
  rw [Greedy.held, hmax, allocatedTo, sumIf]
  exact ((orderBy_perm _ _).map itemsIn).sum_eq

end Stocks

end Aixinwu
