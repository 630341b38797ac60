import Aixinwu.Lib.Aggregates
import Aixinwu.Lib.Greedy
import Aixinwu.Lib.KeyedSums
import Aixinwu.Lib.OrderBy
import Aixinwu.Warehouse.Models

/-!
# Allocating stocks

`allocate_stocks` of `saleor/warehouse/management.py`, with the query that selects the stocks, the
maps of what is allocated and reserved, the order of the stocks and the loop over the lines.

`stocks_id` is a generator, so whoever filters by it first uses it up. If reservations are checked
that is the query for the reservations, and the query for the allocations runs with no stock at all:
the map of what is allocated is empty. The generator is modelled as the ids it still has to yield.

## Main definitions

* `forChannelAndCountry`, `forChannelAndClickAndCollect`
* `prepareStockToReservedQuantityMap`, `quantityAllocationForStocks`, `sortStocks`
* `fillFromStocks`, `createAllocations`, `allocateStocks`

## Main results

* `fillFromStocks_eq` — the loop over the stocks fills a line in order
* `sortStocks_perm`
* `allocateStocks_eq_ok` — what an allocation that succeeds writes
-/

namespace Aixinwu

namespace Stocks

/-! ### Which stocks -/

/-- The channels with a slug. -/
def channelsWith (db : Db) (channelSlug : String) : List ℕ :=
  (db.channels.rows.filter (·.slug = channelSlug)).map (·.pk)

/-- The warehouses of a channel. -/
def warehouseChannels (db : Db) (channelSlug : String) : List ℕ :=
  (db.channelWarehouses.rows.filter (·.channel ∈ channelsWith db channelSlug)).map (·.warehouse)

/-- `StockQuerySet.for_channel_and_click_and_collect`. -/
def forChannelAndClickAndCollect (db : Db) (channelSlug : String) (s : Stock) : Bool :=
  s.warehouse ∈ warehouseChannels db channelSlug

/-- `StockQuerySet.for_channel_and_country`. -/
def forChannelAndCountry (db : Db) (channelSlug : String) (countryCode : String)
    (includeCcWarehouses : Bool := false) (s : Stock) : Bool :=
  let zones := db.shippingZones.rows.filter fun zone =>
    zone.channels.any (· ∈ channelsWith db channelSlug)
      && (countryCode = "" || countryCode ∈ zone.countries)
  let inZone := (db.warehouses.find? s.warehouse).any fun warehouse =>
    zones.any (·.pk ∈ warehouse.shippingZones)
  let isCollectionPoint := (db.warehouses.find? s.warehouse).any fun warehouse =>
    warehouse.clickAndCollectOption ≠ .disabled
  s.warehouse ∈ warehouseChannels db channelSlug
    && (inZone || (countryCode = "" || includeCcWarehouses) && isCollectionPoint)

/-! ### What is taken -/

/-- `exclude_checkout_lines(checkout_lines)`; a reservation without a checkout line stays. -/
def notOfCheckoutLines (checkoutLines : List ℕ) (r : Reservation) : Bool :=
  r.checkoutLine.all (· ∉ checkoutLines)

/-- `_prepare_stock_to_reserved_quantity_map`: the map, and what the generator has left. -/
def prepareStockToReservedQuantityMap (db : Db) (now : Time) (checkoutLines : List ℕ)
    (checkReservations : Bool) (stocksId : List ℕ) : (ℕ → ℤ) × List ℕ :=
  if checkReservations then
    (fun stock => sumIf (fun r => decide (r.stock = stock))
      (fun r : Reservation => (r.quantityReserved : ℤ))
      (db.reservations.rows.filter fun r =>
        decide (r.stock ∈ stocksId) && decide (now < r.reservedUntil)
          && notOfCheckoutLines checkoutLines r), [])
  else (fun _ => 0, stocksId)

/-- `quantity_allocation_for_stocks`. -/
def quantityAllocationForStocks (db : Db) (stocksId : List ℕ) (stock : ℕ) : ℤ :=
  sumIf (fun a => decide (a.stock = stock)) (fun a : Allocation => (a.quantityAllocated : ℤ))
    (db.allocations.rows.filter fun a =>
      decide (a.stock ∈ stocksId) && decide (0 < a.quantityAllocated))

/-! ### In which order -/

/-- The warehouses of a channel among some, in the order of the channel: by `sort_order`, where
there is one, and then by key. -/
def sortedWarehouseList (db : Db) (channel : Channel) (warehouseIds : List ℕ) : List ℕ :=
  let rows := db.channelWarehouses.rows.filter fun row =>
    decide (row.channel = channel.pk) && decide (row.warehouse ∈ warehouseIds)
  (orderBy (fun row => match row.sortOrder with
    | some n => (n : WithTop ℤ)
    | none => ⊤) (orderBy (·.pk) rows)).map (·.warehouse)

/-- `sort_stocks`. The collection point goes first; the others by what is left of them, most first,
or by the order of their warehouses. `reverse=True` keeps the order of stocks that tie, so it is the
order by the negated key. -/
def sortStocks (db : Db) (allocationStrategy : AllocationStrategy) (stocks : List Stock)
    (channel : Channel) (quantityAllocation : ℕ → ℤ) (collectionPointPk : Option ℕ) :
    Except AllocateError (List Stock) :=
  match allocationStrategy with
  | .prioritizeHighStock =>
    .ok (orderBy (fun s : Stock =>
      if collectionPointPk = some s.warehouse then (⊥ : WithBot ℤ)
      else ((quantityAllocation s.pk - s.quantity : ℤ) : WithBot ℤ)) stocks)
  | .prioritizeSortingOrder =>
    let sortedWarehouses := sortedWarehouseList db channel (stocks.map (·.warehouse))
    if stocks.all fun s =>
        collectionPointPk = some s.warehouse || s.warehouse ∈ sortedWarehouses then
      .ok (orderBy (fun s : Stock =>
        if collectionPointPk = some s.warehouse then (⊥ : WithBot ℕ)
        else (sortedWarehouses.idxOf s.warehouse : WithBot ℕ)) stocks)
    else .error .valueError

/-! ### The lines -/

/-- `get_order_lines_with_track_inventory`. -/
def getOrderLinesWithTrackInventory (now : Time) (orderLinesInfo : List OrderLineInfo) :
    List OrderLineInfo :=
  orderLinesInfo.filter fun info =>
    info.variant.any fun v => v.trackInventory && !v.isPreorderActive now

/-- What is available in a stock, by the maps. -/
def quantityAvailableInStock (stocksAllocations stocksReservations : ℕ → ℤ) (s : Stock) : ℤ :=
  s.quantity - stocksAllocations s.pk - stocksReservations s.pk

/-- The ways the loop over the stocks can end. -/
inductive Filled (α : Type) where
  | filled (items : List α)
  | insufficient
  | fellThrough
deriving DecidableEq, Repr

/-- The loop over the stocks of `_create_allocations` and of `_create_stock_reservations`: `item` is
what is made for a stock and a quantity. -/
def fillFromStocks {α : Type} (item : Stock → ℕ → α) (quantity : ℤ) (available : Stock → ℤ) :
    ℤ → List α → List Stock → Filled α
  | quantityFilled, _, [] =>
    -- a line of quantity 0 comes here with everything filled
    if quantityFilled = quantity then .fellThrough else .insufficient
  | quantityFilled, items, s :: stocks =>
    let quantityToFill := min (quantity - quantityFilled) (available s)
    if 0 < quantityToFill then
      let items := items ++ [item s quantityToFill.toNat]
      if quantityFilled + quantityToFill = quantity then .filled items
      else fillFromStocks item quantity available (quantityFilled + quantityToFill) items stocks
    else fillFromStocks item quantity available quantityFilled items stocks

/-- `_create_allocations`; where it falls through it returns nothing, which cannot be unpacked. -/
def createAllocations (info : OrderLineInfo) (stocks : List Stock)
    (stocksAllocations stocksReservations : ℕ → ℤ) : Filled Allocation :=
  fillFromStocks (fun s quantity => ⟨info.line, s.pk, quantity⟩) info.quantity
    (quantityAvailableInStock stocksAllocations stocksReservations) 0 [] stocks

/-- The loop over the lines: the allocations, and what is insufficient. -/
def createAllocationsForLines (create : OrderLineInfo → Filled Allocation) :
    List OrderLineInfo → Except AllocateError (List Allocation × List InsufficientStockData)
  | [] => .ok ([], [])
  | info :: infos =>
    match create info, createAllocationsForLines create infos with
    | .fellThrough, _ => .error .typeError
    | _, .error e => .error e
    | .filled items, .ok (allocations, insufficient) => .ok (items ++ allocations, insufficient)
    | .insufficient, .ok (allocations, insufficient) =>
      .ok (allocations,
        { availableQuantity := 0, variant := info.variant, orderLine := some info.line }
          :: insufficient)

/-! ### The operation -/

/-- `bulk_update(stocks, ["quantity_allocated"])` of instances, each fetched on its own, that add to
the counter: one `WHEN` for each instance, and the first of a stock wins. -/
def addToQuantityAllocated (stocks : Table Stock) (increments : List (ℕ × ℤ)) : Table Stock :=
  stocks.map (fun s => { s with
    quantityAllocated := s.quantityAllocated + Keyed.firstAt s.pk increments }) fun _ => rfl

/-- The arguments of `allocate_stocks`, and the time of the call. -/
structure AllocateStocks where
  orderLinesInfo : List OrderLineInfo
  countryCode : String
  channel : Channel
  collectionPointPk : Option ℕ := none
  additionalFilterLookup : Stock → Bool := fun _ => true
  checkReservations : Bool := false
  checkoutLines : List ℕ := []
  now : Time

namespace AllocateStocks

variable (c : AllocateStocks) (db : Db)

/-- The lines that are allocated. -/
def infos : List OrderLineInfo := getOrderLinesWithTrackInventory c.now c.orderLinesInfo

/-- The filter of the stocks, but for the variants. -/
def scope (s : Stock) : Bool :=
  (match c.collectionPointPk with
    | some _ => forChannelAndClickAndCollect db c.channel.slug s
    | none => forChannelAndCountry db c.channel.slug c.countryCode false s)
    && c.additionalFilterLookup s

/-- The stocks that are locked, in the order of their keys. -/
def stocks : List Stock :=
  orderBy (·.pk) (db.stocks.rows.filter fun s =>
    c.scope db s && decide (some s.productVariant ∈ c.infos.map fun info => info.variant.map (·.pk)))

/-- What is reserved, by its map. -/
def reserved : ℕ → ℤ :=
  (prepareStockToReservedQuantityMap db c.now c.checkoutLines c.checkReservations
    ((c.stocks db).map (·.pk))).1

/-- What is allocated, by its map: with the ids the generator has left. -/
def allocated : ℕ → ℤ :=
  quantityAllocationForStocks db
    (prepareStockToReservedQuantityMap db c.now c.checkoutLines c.checkReservations
      ((c.stocks db).map (·.pk))).2

/-- The stocks in the order in which they are allocated. -/
def sorted : Except AllocateError (List Stock) :=
  sortStocks db c.channel.allocationStrategy (c.stocks db) c.channel (c.allocated db)
    c.collectionPointPk

/-- `variant_to_stocks[variant]`. -/
def variantToStocks (sorted : List Stock) (variant : Option ℕ) : List Stock :=
  sorted.filter fun s => variant = some s.productVariant

/-- `_create_allocations` for a line. -/
def create (sorted : List Stock) (info : OrderLineInfo) : Filled Allocation :=
  createAllocations info (variantToStocks sorted (info.variant.map (·.pk))) (c.allocated db)
    (c.reserved db)

end AllocateStocks

/-- The stocks of `decrease_stock`: those of the variants of the lines in the warehouses of the
lines. -/
def stocksOfLines (db : Db) (infos : List OrderLineInfo) : List Stock :=
  orderBy (·.pk) (db.stocks.rows.filter fun s =>
    decide (some s.productVariant ∈ infos.map fun info => info.variant.map (·.pk))
      && decide (some s.warehouse ∈ infos.map (·.warehousePk)))

/-- `allocate_stocks`. -/
def allocateStocks (c : AllocateStocks) (db : Db) : Except AllocateError Db :=
  if c.infos = [] then .ok db
  else
    match c.sorted db with
    | .error e => .error e
    | .ok sorted =>
      match createAllocationsForLines (c.create db sorted) c.infos with
      | .error e => .error e
      | .ok (_, item :: items) => .error (.insufficientStock (item :: items))
      | .ok (allocations, []) =>
        match db.allocations.insertAll allocations with
        | none => .error .integrityError
        | some t =>
          .ok { db with
            allocations := t
            stocks := addToQuantityAllocated db.stocks
              (allocations.map fun a => (a.stock, (a.quantityAllocated : ℤ))) }

/-! ### What the loops do -/

section Fill

variable {α : Type} {item : Stock → ℕ → α} {quantity : ℤ} {available : Stock → ℤ}

/-- The items that stand for what the stocks give. -/
def rowsOf (item : Stock → ℕ → α) (given : List (Stock × ℤ)) : List α :=
  given.map fun e => item e.1 e.2.toNat

/-- **The loop over the stocks** fills the line from them, in order. -/
theorem fillFromStocks_eq {quantityFilled : ℤ} (h : quantityFilled < quantity) (items : List α)
    (stocks : List Stock) :
    fillFromStocks item quantity available quantityFilled items stocks
      = if (Greedy.pour available (quantity - quantityFilled) stocks).2 = 0 then
          .filled (items ++ rowsOf item (Greedy.pour available (quantity - quantityFilled) stocks).1)
        else .insufficient := by
  induction stocks generalizing quantityFilled items with
  | nil =>
    rw [fillFromStocks, Greedy.pour_nil, if_neg h.ne, if_neg (sub_pos.mpr h).ne']
  | cons s stocks ih =>
    rw [fillFromStocks, Greedy.pour_cons]
    by_cases hpos : 0 < min (quantity - quantityFilled) (available s)
    · simp only [hpos, if_true]
      by_cases hall : quantityFilled + min (quantity - quantityFilled) (available s) = quantity
      · have hzero : quantity - quantityFilled - min (quantity - quantityFilled) (available s)
            = 0 := by omega
        rw [if_pos hall, hzero, Greedy.pour_of_nonpos available le_rfl, if_pos rfl]
        rfl
      · have hrest : quantity - (quantityFilled + min (quantity - quantityFilled) (available s))
            = quantity - quantityFilled - min (quantity - quantityFilled) (available s) := by
          omega
        rw [if_neg hall, ih (by omega), hrest, List.append_assoc]
        rfl
    · simp only [hpos, if_false]
      exact ih h items

/-- Nothing is filled without a positive quantity. -/
theorem fillFromStocks_of_nonpos (h : quantity ≤ 0) (items : List α) (stocks : List Stock) :
    fillFromStocks item quantity available 0 [] stocks ≠ .filled items := by
  induction stocks with
  | nil =>
    rw [fillFromStocks]
    split <;> exact nofun
  | cons s stocks ih =>
    have hmin : ¬ 0 < min (quantity - 0) (available s) := by omega
    rw [fillFromStocks]
    simp only [hmin, if_false]
    exact ih

/-- What a line that is filled has. -/
theorem fillFromStocks_eq_filled {stocks : List Stock} {items : List α}
    (h : fillFromStocks item quantity available 0 [] stocks = .filled items) :
    0 < quantity ∧ (Greedy.pour available quantity stocks).2 = 0 ∧
    items = rowsOf item (Greedy.pour available quantity stocks).1 := by
  have hpos : 0 < quantity := by
    by_contra hnot
    exact fillFromStocks_of_nonpos (not_lt.mp hnot) items stocks h
  rw [fillFromStocks_eq hpos, sub_zero] at h
  split at h
  · rename_i hzero
    exact ⟨hpos, hzero, (Filled.filled.inj h).symm⟩
  · cases h

/-- What is filled is the quantity. -/
theorem sum_filled {amount : α → ℤ} (hamount : ∀ s n, amount (item s n) = n) {stocks : List Stock}
    {items : List α} (h : fillFromStocks item quantity available 0 [] stocks = .filled items) :
    (items.map amount).sum = quantity := by
  obtain ⟨-, hzero, rfl⟩ := fillFromStocks_eq_filled h
  have hsum : ((Greedy.pour available quantity stocks).1.map (·.2)).sum
      + (Greedy.pour available quantity stocks).2 = quantity := Greedy.sum_pour quantity stocks
  rw [hzero, add_zero] at hsum
  rw [rowsOf, List.map_map]
  refine (congrArg List.sum (List.map_congr_left fun e he => ?_)).trans hsum
  exact (hamount _ _).trans (Int.toNat_of_nonneg (Greedy.pour_le he).1.le)

/-- A stock gives a line that is filled from it its share, and another nothing. -/
theorem sumIf_filled {stockOf : α → ℕ} {amount : α → ℤ} (hstock : ∀ s n, stockOf (item s n) = s.pk)
    (hamount : ∀ s n, amount (item s n) = n) {t : Table Stock} {stocks : List Stock}
    (hmem : ∀ s ∈ stocks, s ∈ t) (hnodup : stocks.Nodup) {items : List α}
    (h : fillFromStocks item quantity available 0 [] stocks = .filled items) {s : Stock}
    (hs : s ∈ t) :
    sumIf (fun a => decide (stockOf a = s.pk)) amount items
      = if s ∈ stocks then Greedy.share available quantity s stocks else 0 := by
  obtain ⟨hpos, -, rfl⟩ := fillFromStocks_eq_filled h
  have hgiven : sumIf (fun a => decide (stockOf a = s.pk)) amount
      (rowsOf item (Greedy.pour available quantity stocks).1)
        = Greedy.givenBy s (Greedy.pour available quantity stocks).1 := by
    rw [rowsOf, sumIf_map]
    refine sumIf_congr (fun e he => decide_eq_decide.mpr ?_) fun e he _ => ?_
    · have hbin := (Greedy.pour_sublist _ _).subset (List.mem_map_of_mem he)
      rw [hstock]
      exact ⟨fun hpk => Table.eq_of_pk_eq (hmem _ hbin) hs hpk, fun heq => congrArg Stock.pk heq⟩
    · exact (hamount _ _).trans (Int.toNat_of_nonneg (Greedy.pour_le he).1.le)
  rw [hgiven]
  by_cases hin : s ∈ stocks
  · rw [if_pos hin]
    exact Greedy.givenBy_pour hnodup hin hpos.le
  · rw [if_neg hin]
    exact Greedy.givenBy_eq_zero fun hgives => hin ((Greedy.pour_sublist _ _).subset hgives)

/-- The items of a line that is filled. -/
def Filled.items : Filled α → List α
  | .filled items => items
  | _ => []

end Fill

theorem createAllocationsForLines_eq_ok {create : OrderLineInfo → Filled Allocation}
    {infos : List OrderLineInfo} {allocations : List Allocation}
    (h : createAllocationsForLines create infos = .ok (allocations, [])) :
    allocations = infos.flatMap (fun info => (create info).items) ∧
    ∀ info ∈ infos, create info = .filled (create info).items := by
  induction infos generalizing allocations with
  | nil =>
    obtain rfl := (Prod.mk.inj (Except.ok.inj h)).1
    exact ⟨rfl, nofun⟩
  | cons info infos ih =>
    rw [createAllocationsForLines] at h
    split at h
    · cases h
    · cases h
    · rename_i items rest insufficient hitems hrest
      obtain ⟨rfl, rfl⟩ := Prod.mk.inj (Except.ok.inj h)
      obtain ⟨hflat, hall⟩ := ih hrest
      refine ⟨?_, List.forall_mem_cons.mpr ⟨?_, hall⟩⟩
      · rw [List.flatMap_cons, hitems, ← hflat]
        rfl
      · rw [hitems]
        rfl
    · cases (Prod.mk.inj (Except.ok.inj h)).2

/-! ### The order of the stocks -/

theorem sortStocks_perm {db : Db} {strategy : AllocationStrategy} {stocks sorted : List Stock}
    {channel : Channel} {allocated : ℕ → ℤ} {collectionPointPk : Option ℕ}
    (h : sortStocks db strategy stocks channel allocated collectionPointPk = .ok sorted) :
    sorted.Perm stocks := by
  rw [sortStocks.eq_def] at h
  cases strategy with
  | prioritizeHighStock =>
    obtain rfl := Except.ok.inj h
    exact orderBy_perm _ stocks
  | prioritizeSortingOrder =>
    dsimp only at h
    split at h
    · obtain rfl := Except.ok.inj h
      exact orderBy_perm _ stocks
    · cases h

/-! ### What the operation does -/

/-- **What an allocation that succeeds writes**: each line's rows, and the first row of each stock
on its counter. -/
theorem allocateStocks_eq_ok {c : AllocateStocks} {db db' : Db} (h : allocateStocks c db = .ok db') :
    (c.infos = [] ∧ db' = db) ∨
    ∃ sorted t, c.sorted db = .ok sorted ∧
      (∀ info ∈ c.infos, c.create db sorted info
        = .filled (c.create db sorted info).items) ∧
      t.rows = db.allocations.rows ++ c.infos.flatMap (fun info => (c.create db sorted info).items) ∧
      db' = { db with
        allocations := t
        stocks := addToQuantityAllocated db.stocks
          ((c.infos.flatMap fun info => (c.create db sorted info).items).map
            fun a => (a.stock, (a.quantityAllocated : ℤ))) } := by
  rw [allocateStocks] at h
  split at h
  · rename_i hnil
    exact Or.inl ⟨hnil, (Except.ok.inj h).symm⟩
  split at h
  · cases h
  rename_i sorted hsorted
  split at h
  · cases h
  · cases h
  rename_i allocations hcreate
  split at h
  · cases h
  rename_i t ht
  obtain ⟨rfl, hall⟩ := createAllocationsForLines_eq_ok hcreate
  exact Or.inr ⟨sorted, t, hsorted, hall, Table.insertAll_eq_some.mp ht, (Except.ok.inj h).symm⟩

end Stocks

end Aixinwu
