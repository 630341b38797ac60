import Aixinwu.Lib.LeftJoin
import Aixinwu.Warehouse.Allocate
import Aixinwu.Warehouse.PurchaseLimits

/-!
# What is available

The checks of `saleor/warehouse/availability.py` that read stocks: `check_stock_quantity` for a
variant, `check_stock_quantity_bulk` for the lines of a checkout, and `is_product_in_stock`.

They compute what is available in two ways. `annotate_available_quantity` takes from each stock what
is allocated of it. `_get_available_quantity` aggregates over the stocks joined with their
allocations, and counts with `SUM(DISTINCT quantity)` what the join repeats: stocks that hold
equally many items are counted as one. `is_product_in_stock` asks whether some annotated quantity is
true, and a negative one is.

## Main definitions

* `annotateAvailableQuantity`, `getAvailableQuantity`, `checkStockQuantity`, `isProductInStock`
* `StockCheck`, `checkStockQuantityBulk`

## Main results

* `raisesInsufficientStock_iff` — the loop over the lines
* `availabilitiesAgree_iff` — when the computations agree
-/

namespace Aixinwu

namespace Stocks

open LeftJoin

/-- The tables, with the columns of variants, orders and order lines that the checks read besides.
-/
structure Store extends Db where
  catalogue : Table Variant := .empty
  purchases : Purchases := {}

/-! ### The queries -/

/-- `annotate_available_quantity`. -/
def annotateAvailableQuantity (db : Db) (s : Stock) : ℤ :=
  s.quantity - sumIf (fun a => decide (a.stock = s.pk))
    (fun a : Allocation => (a.quantityAllocated : ℤ))
    (db.allocations.rows.filter fun a => decide (0 < a.quantityAllocated))

/-- `get_reserved_stock_quantity`; the checkout lines it is given are not looked at. -/
def getReservedStockQuantity (db : Db) (stocks : List Stock) : ℤ :=
  sumIf (fun r => decide (r.stock ∈ stocks.map (·.pk)))
    (fun r : Reservation => (r.quantityReserved : ℤ)) db.reservations.rows

/-- The groups of `qs.values("stock_id").annotate(quantity_reserved=…)`. -/
def reservedByStock (db : Db) (stocks : List Stock) : List (ℕ × ℤ) :=
  let qs := db.reservations.rows.filter fun r => decide (r.stock ∈ stocks.map (·.pk))
  (qs.map (·.stock)).dedup.map fun stock =>
    (stock, sumIf (fun r => decide (r.stock = stock))
      (fun r : Reservation => (r.quantityReserved : ℤ)) qs)

/-- A group is added to the variant of its stock, if there is one; keys start at 1. -/
def addToVariant (stocks : List Stock) (reservations : ℕ → ℤ) (group : ℕ × ℤ) : ℕ → ℤ :=
  match stocks.find? (·.pk = group.1) with
  | some s => Function.update reservations s.productVariant
      (reservations s.productVariant + group.2)
  | none => reservations

/-- `get_reserved_stock_quantity_bulk`, a `defaultdict`; the lines it is given are not looked at. -/
def getReservedStockQuantityBulk (db : Db) (stocks : List Stock) : ℕ → ℤ :=
  (reservedByStock db stocks).foldl (addToVariant stocks) fun _ => 0

/-- `get_variant_stocks_for_country`. -/
def getVariantStocksForCountry (db : Db) (countryCode channelSlug : String) (variant : ℕ) :
    List Stock :=
  db.stocks.rows.filter fun s =>
    forChannelAndCountry db channelSlug countryCode false s && decide (s.productVariant = variant)

/-- `get_product_stocks_for_country_and_channel`. -/
def getProductStocksForCountryAndChannel (db : Store) (countryCode channelSlug : String)
    (product : ℕ) : List Stock :=
  db.stocks.rows.filter fun s =>
    forChannelAndCountry db.toDb channelSlug countryCode false s
      && (db.catalogue.find? s.productVariant).any (·.product = product)

/-! ### A variant, a product -/

/-- `_get_available_quantity`, a query over the stocks and their allocations. -/
def getAvailableQuantity (db : Db) (stocks : List Stock) (checkReservations : Bool := false) : ℤ :=
  let rows := leftJoin (fun (s : Stock) (a : Allocation) => decide (a.stock = s.pk)) stocks
    db.allocations.rows
  let totalQuantity := sumDistinct (fun row => row.1.quantity) rows
  let quantityAllocated := sumOfSome (fun a : Allocation => (a.quantityAllocated : ℤ)) rows
  let quantityReserved := if checkReservations then getReservedStockQuantity db stocks else 0
  max (totalQuantity - quantityAllocated - quantityReserved) 0

/-- `check_stock_quantity`; an error is `InsufficientStock`. -/
def checkStockQuantity (db : Db) (variant : Variant) (countryCode channelSlug : String)
    (quantity : ℤ) (checkReservations : Bool := false) (orderLine : Option ℕ := none) :
    Except (List InsufficientStockData) Unit :=
  if variant.trackInventory then
    let stocks := getVariantStocksForCountry db countryCode channelSlug variant.pk
    let insufficient : InsufficientStockData :=
      { availableQuantity := 0, variant := some variant.toProductVariant, orderLine := orderLine }
    if stocks = [] then .error [insufficient]
    else if quantity > getAvailableQuantity db stocks checkReservations then .error [insufficient]
    else .ok ()
  else .ok ()

/-- `is_product_in_stock`: an annotated quantity is true if it is not zero. -/
def isProductInStock (db : Store) (product : ℕ) (countryCode channelSlug : String) : Bool :=
  (getProductStocksForCountryAndChannel db countryCode channelSlug product).any fun s =>
    annotateAvailableQuantity db.toDb s ≠ 0

/-! ### The lines of a checkout -/

/-- `checkout.fetch.DeliveryMethodBase`, as far as the check reads it: whether there is a delivery
method, and the warehouse, of a collection point. -/
structure DeliveryMethodInfo where
  hasDeliveryMethod : Bool
  warehousePk : Option ℕ := none

/-- `checkout.fetch.CheckoutLineInfo`: the keys of a line and of its variant, and its quantity. -/
structure CheckoutLineInfo where
  line : ℕ
  variant : ℕ
  quantity : ℤ

/-- The arguments of `check_stock_quantity_bulk`, but for the variants and quantities. -/
structure StockCheck where
  user : Option ℕ := none
  countryCode : String
  channelSlug : String
  globalQuantityLimit : Option ℤ := none
  deliveryMethodInfo : Option DeliveryMethodInfo := none
  additionalFilterLookup : Option (Stock → Bool) := none
  existingLines : List CheckoutLineInfo := []
  replace : Bool := false
  checkReservations : Bool := true

/-- What `check_stock_quantity_bulk` raises. -/
inductive StockCheckError where
  | quantityLimit (e : QuantityLimitError)
  | insufficientStock (items : List InsufficientStockData)
deriving DecidableEq, Repr

namespace StockCheck

variable (c : StockCheck) (db : Store)

/-- The stocks before they are filtered. In standard warehouses, and in collection points if there
is no delivery method yet; for click and collect in those of the channel, whatever the country. -/
def scope (s : Stock) : Bool :=
  let includeCcWarehouses := match c.deliveryMethodInfo with
    | some info => !info.hasDeliveryMethod
    | none => true
  match c.deliveryMethodInfo.bind (·.warehousePk) with
  | some _ => forChannelAndClickAndCollect db.toDb c.channelSlug s
  | none => forChannelAndCountry db.toDb c.channelSlug c.countryCode includeCcWarehouses s

/-- `all_variants_stocks`. -/
def allVariantsStocks (variants : List Variant) : List Stock :=
  db.stocks.rows.filter fun s =>
    c.scope db s && decide (s.productVariant ∈ variants.map (·.pk))
      && (match c.additionalFilterLookup with
        | some lookup => lookup s
        | none => true)

/-- `variant_stocks`. -/
def variantStocks (variants : List Variant) (variant : ℕ) : List Stock :=
  (c.allVariantsStocks db variants).filter (·.productVariant = variant)

/-- `variant_reservations`. -/
def variantReservations (variants : List Variant) : ℕ → ℤ :=
  if c.checkReservations then getReservedStockQuantityBulk db.toDb (c.allVariantsStocks db variants)
  else fun _ => 0

/-- `variants_quantities`; of the lines of a variant the last counts. -/
def variantsQuantities (variant : ℕ) : ℤ :=
  match c.existingLines.reverse.find? (·.variant = variant) with
  | some line => line.quantity
  | none => 0

/-- `available_quantity`, of a variant. -/
def availableQuantity (variants : List Variant) (variant : ℕ) : ℤ :=
  max (((c.variantStocks db variants variant).map (annotateAvailableQuantity db.toDb)).sum
    - c.variantReservations db variants variant) 0

/-- What is appended for a variant and a positive quantity. -/
def insufficientStocks (variants : List Variant) (variant : Variant) (quantity : ℤ) :
    List InsufficientStockData :=
  let availableQuantity := c.availableQuantity db variants variant.pk
  if c.variantStocks db variants variant.pk = [] then
    [{ availableQuantity, variant := some variant.toProductVariant }]
  else if variant.trackInventory ∧ quantity > availableQuantity then
    [{ availableQuantity, variant := some variant.toProductVariant }]
  else []

/-- The loop over the variants and quantities. -/
def checkPairs (variants : List Variant) :
    List InsufficientStockData → List (Variant × ℤ) →
      Except StockCheckError (List InsufficientStockData)
  | insufficient, [] => .ok insufficient
  | insufficient, (variant, quantity) :: pairs =>
    let quantity := if c.replace then quantity else quantity + c.variantsQuantities variant.pk
    if 0 < quantity then
      match checkQuantityLimits db.purchases c.user variant quantity c.globalQuantityLimit with
      | .error e => .error (.quantityLimit e)
      | .ok () =>
        checkPairs variants (insufficient ++ c.insufficientStocks db variants variant quantity)
          pairs
    else checkPairs variants insufficient pairs

end StockCheck

/-- `check_stock_quantity_bulk`. -/
def checkStockQuantityBulk (c : StockCheck) (db : Store) (variants : List Variant)
    (quantities : List ℤ) : Except StockCheckError Unit :=
  match c.checkPairs db variants [] (variants.zip quantities) with
  | .error e => .error e
  | .ok [] => .ok ()
  | .ok (item :: items) => .error (.insufficientStock (item :: items))

/-! ### The loop over the lines -/

section Pairs

variable {c : StockCheck} {db : Store} {variants : List Variant}

/-- The quantity that is checked for a variant. -/
def StockCheck.effectiveQuantity (c : StockCheck) (variant : Variant) (quantity : ℤ) : ℤ :=
  if c.replace then quantity else quantity + c.variantsQuantities variant.pk

/-- No limit is exceeded. -/
def StockCheck.WithinLimits (c : StockCheck) (db : Store) (pairs : List (Variant × ℤ)) : Prop :=
  ∀ p ∈ pairs, 0 < c.effectiveQuantity p.1 p.2 →
    ¬ ExceedsLimit db.purchases c.user p.1 (c.effectiveQuantity p.1 p.2) c.globalQuantityLimit

/-- What a pair appends. -/
def StockCheck.itemsOf (c : StockCheck) (db : Store) (variants : List Variant)
    (p : Variant × ℤ) : List InsufficientStockData :=
  if 0 < c.effectiveQuantity p.1 p.2 then
    c.insufficientStocks db variants p.1 (c.effectiveQuantity p.1 p.2)
  else []

/-- Within the limits the loop appends what the pairs append. -/
theorem checkPairs_eq_ok {pairs : List (Variant × ℤ)} (h : c.WithinLimits db pairs)
    (insufficient : List InsufficientStockData) :
    c.checkPairs db variants insufficient pairs
      = .ok (insufficient ++ pairs.flatMap (c.itemsOf db variants)) := by
  induction pairs generalizing insufficient with
  | nil => rw [List.flatMap_nil, List.append_nil, StockCheck.checkPairs]
  | cons p pairs ih =>
    obtain ⟨variant, quantity⟩ := p
    obtain ⟨hfirst, hrest⟩ := List.forall_mem_cons.mp h
    rw [StockCheck.checkPairs, List.flatMap_cons, StockCheck.itemsOf]
    by_cases hpos : 0 < c.effectiveQuantity variant quantity
    · have hok : checkQuantityLimits db.purchases c.user variant
          (c.effectiveQuantity variant quantity) c.globalQuantityLimit = .ok () := by
        cases hcheck : checkQuantityLimits db.purchases c.user variant
            (c.effectiveQuantity variant quantity) c.globalQuantityLimit with
        | error e => exact absurd ⟨e, hcheck⟩ (hfirst hpos)
        | ok u => rfl
      rw [StockCheck.effectiveQuantity] at hpos hok
      simp only [StockCheck.effectiveQuantity, hpos, hok, if_true]
      rw [ih hrest, List.append_assoc]
    · rw [StockCheck.effectiveQuantity] at hpos
      simp only [StockCheck.effectiveQuantity, hpos, if_false]
      rw [ih hrest, List.nil_append]

/-- A pair that appends something. -/
theorem itemsOf_ne_nil_iff {p : Variant × ℤ} :
    c.itemsOf db variants p ≠ [] ↔ 0 < c.effectiveQuantity p.1 p.2 ∧
      (c.variantStocks db variants p.1.pk = [] ∨ p.1.trackInventory ∧
        c.availableQuantity db variants p.1.pk < c.effectiveQuantity p.1 p.2) := by
  rw [StockCheck.itemsOf, StockCheck.insufficientStocks]
  by_cases hpos : 0 < c.effectiveQuantity p.1 p.2
  · by_cases hnone : c.variantStocks db variants p.1.pk = []
    · simp [hpos, hnone]
    · simp [hpos, hnone]
  · simp [hpos]

/-- The check raises `InsufficientStock`. -/
def RaisesInsufficientStock (c : StockCheck) (db : Store) (variants : List Variant)
    (quantities : List ℤ) : Prop :=
  ∃ items, checkStockQuantityBulk c db variants quantities = .error (.insufficientStock items)

/-- **The check of several lines** raises if there is a line that on its own is too much. -/
theorem raisesInsufficientStock_iff {quantities : List ℤ}
    (h : c.WithinLimits db (variants.zip quantities)) :
    RaisesInsufficientStock c db variants quantities
      ↔ ∃ p ∈ variants.zip quantities, 0 < c.effectiveQuantity p.1 p.2 ∧
        (c.variantStocks db variants p.1.pk = [] ∨ p.1.trackInventory ∧
          c.availableQuantity db variants p.1.pk < c.effectiveQuantity p.1 p.2) := by
  have hitems : RaisesInsufficientStock c db variants quantities
      ↔ (variants.zip quantities).flatMap (c.itemsOf db variants) ≠ [] := by
    rw [RaisesInsufficientStock, checkStockQuantityBulk, checkPairs_eq_ok h, List.nil_append]
    cases (variants.zip quantities).flatMap (c.itemsOf db variants) with
    | nil =>
      constructor
      · rintro ⟨items, herror⟩
        cases herror
      · exact fun hne => absurd rfl hne
    | cons item items => exact ⟨fun _ => List.cons_ne_nil _ _, fun _ => ⟨_, rfl⟩⟩
  rw [hitems, Ne, List.flatMap_eq_nil_iff]
  simp only [not_forall, exists_prop, ← Ne.eq_def, itemsOf_ne_nil_iff]

/-- The check accepts exactly if it raises neither for a limit nor for a stock. -/
theorem checkStockQuantityBulk_eq_ok_iff {quantities : List ℤ}
    (h : c.WithinLimits db (variants.zip quantities)) :
    checkStockQuantityBulk c db variants quantities = .ok ()
      ↔ ¬ RaisesInsufficientStock c db variants quantities := by
  rw [RaisesInsufficientStock, checkStockQuantityBulk, checkPairs_eq_ok h, List.nil_append]
  cases (variants.zip quantities).flatMap (c.itemsOf db variants) with
  | nil =>
    refine ⟨fun _ => ?_, fun _ => rfl⟩
    rintro ⟨items, herror⟩
    cases herror
  | cons item items =>
    constructor
    · intro hok
      cases hok
    · exact fun hnot => absurd ⟨_, rfl⟩ hnot

end Pairs

/-! ### Whether the computations agree -/

section Agreement

/-- What is allocated of a stock. -/
def allocatedOf (db : Db) (s : Stock) : ℤ :=
  sumIf (fun a => decide (a.stock = s.pk)) (fun a : Allocation => (a.quantityAllocated : ℤ))
    db.allocations.rows

/-- Allocations of nothing take nothing. -/
theorem annotateAvailableQuantity_eq (db : Db) (s : Stock) :
    annotateAvailableQuantity db s = s.quantity - allocatedOf db s := by
  have hzero : ∀ a : Allocation, (if decide (0 < a.quantityAllocated) = true then
      (a.quantityAllocated : ℤ) else 0) = a.quantityAllocated := by
    intro a
    by_cases hpos : 0 < a.quantityAllocated
    · simp [hpos]
    · have hnone : a.quantityAllocated = 0 := by omega
      simp [hnone]
  rw [annotateAvailableQuantity, ← sumIf_ite, funext hzero]
  rfl

theorem sum_annotateAvailableQuantity (db : Db) (stocks : List Stock) :
    (stocks.map (annotateAvailableQuantity db)).sum
      = (stocks.map (·.quantity)).sum - (stocks.map (allocatedOf db)).sum := by
  induction stocks with
  | nil => rfl
  | cons s stocks ih =>
    rw [List.map_cons, List.sum_cons, ih, annotateAvailableQuantity_eq]
    simp only [List.map_cons, List.sum_cons]
    omega

/-- **The aggregate over the join**: equal quantities count once, allocations all. -/
theorem getAvailableQuantity_eq (db : Db) (stocks : List Stock) :
    getAvailableQuantity db stocks
      = max (sumDistinct (·.quantity) stocks - (stocks.map (allocatedOf db)).sum) 0 := by
  have hdistinct := sumDistinct_leftJoin
    (fun (s : Stock) (a : Allocation) => decide (a.stock = s.pk)) (fun s : Stock => s.quantity)
    stocks db.allocations.rows
  rw [getAvailableQuantity, hdistinct, sumOfSome_leftJoin, if_neg Bool.false_ne_true, sub_zero]
  rfl

/-- Counting equal quantities once is harmless: all of them are different, or there is nothing left
either way. -/
def CountedOnce (db : Db) (stocks : List Stock) : Prop :=
  sumDistinct (·.quantity) stocks = (stocks.map (·.quantity)).sum ∨
    sumDistinct (·.quantity) stocks ≤ (stocks.map (allocatedOf db)).sum ∧
      (stocks.map (·.quantity)).sum ≤ (stocks.map (allocatedOf db)).sum

theorem getAvailableQuantity_eq_iff (db : Db) (stocks : List Stock) :
    getAvailableQuantity db stocks = max (stocks.map (annotateAvailableQuantity db)).sum 0
      ↔ CountedOnce db stocks := by
  rw [getAvailableQuantity_eq, sum_annotateAvailableQuantity, CountedOnce]
  omega

/-- The check of several lines as the check of one makes it: delivered from standard warehouses, and
with reservations ignored. -/
def standardCheck (user : Option ℕ) (countryCode channelSlug : String)
    (globalQuantityLimit : Option ℤ) : StockCheck where
  user := user
  countryCode := countryCode
  channelSlug := channelSlug
  globalQuantityLimit := globalQuantityLimit
  deliveryMethodInfo := some { hasDeliveryMethod := true }
  replace := true
  checkReservations := false

variable (db : Store) (user : Option ℕ) (variant : Variant) (product : ℕ)
  (countryCode channelSlug : String) (globalQuantityLimit : Option ℤ)

/-- Both checks see the same stocks. -/
theorem variantStocks_standardCheck :
    (standardCheck user countryCode channelSlug globalQuantityLimit).variantStocks db [variant]
        variant.pk
      = getVariantStocksForCountry db.toDb countryCode channelSlug variant.pk := by
  rw [StockCheck.variantStocks, StockCheck.allVariantsStocks, List.filter_filter,
    getVariantStocksForCountry]
  refine List.filter_congr fun s _ => ?_
  have hscope : (standardCheck user countryCode channelSlug globalQuantityLimit).scope db s
      = forChannelAndCountry db.toDb channelSlug countryCode false s := rfl
  have hlookup : (standardCheck user countryCode channelSlug
      globalQuantityLimit).additionalFilterLookup = none := rfl
  rw [hscope, hlookup]
  by_cases hvariant : s.productVariant = variant.pk
  · simp [hvariant]
  · simp [hvariant]

theorem availableQuantity_standardCheck :
    (standardCheck user countryCode channelSlug globalQuantityLimit).availableQuantity db [variant]
        variant.pk
      = max ((getVariantStocksForCountry db.toDb countryCode channelSlug variant.pk).map
          (annotateAvailableQuantity db.toDb)).sum 0 := by
  have hreservations : (standardCheck user countryCode channelSlug
      globalQuantityLimit).variantReservations db [variant] variant.pk = 0 := rfl
  rw [StockCheck.availableQuantity, variantStocks_standardCheck, hreservations, sub_zero]

/-- The computations of what is available agree: in the quantity, in what the checks of one and of
several lines accept, and in that a product in stock has a stock with something left. -/
structure AvailabilitiesAgree : Prop where
  quantity :
    getAvailableQuantity db.toDb
        (getVariantStocksForCountry db.toDb countryCode channelSlug variant.pk)
      = max ((getVariantStocksForCountry db.toDb countryCode channelSlug variant.pk).map
          (annotateAvailableQuantity db.toDb)).sum 0
  accepted : ∀ quantity : ℤ,
    (0 < quantity → ¬ ExceedsLimit db.purchases user variant quantity globalQuantityLimit) →
    (checkStockQuantity db.toDb variant countryCode channelSlug quantity = .ok ()
      ↔ checkStockQuantityBulk (standardCheck user countryCode channelSlug globalQuantityLimit) db
          [variant] [quantity] = .ok ())
  inStock : isProductInStock db product countryCode channelSlug = true →
    ∃ s ∈ getProductStocksForCountryAndChannel db countryCode channelSlug product,
      0 < annotateAvailableQuantity db.toDb s

variable {db user variant product countryCode channelSlug globalQuantityLimit}

/-- What the check of a line accepts. -/
theorem checkStockQuantity_eq_ok_iff {quantity : ℤ} :
    checkStockQuantity db.toDb variant countryCode channelSlug quantity = .ok ()
      ↔ (variant.trackInventory = true →
        getVariantStocksForCountry db.toDb countryCode channelSlug variant.pk ≠ [] ∧
        quantity ≤ getAvailableQuantity db.toDb
          (getVariantStocksForCountry db.toDb countryCode channelSlug variant.pk)) := by
  rw [checkStockQuantity]
  by_cases htracked : variant.trackInventory = true
  · simp only [htracked, if_true, forall_const]
    split
    · rename_i hnone
      refine ⟨fun h => ?_, fun h => absurd hnone h.1⟩
      cases h
    · rename_i hsome
      split
      · rename_i hmore
        refine ⟨fun h => ?_, fun h => absurd h.2 (not_le.mpr hmore)⟩
        cases h
      · rename_i hless
        exact ⟨fun _ => ⟨hsome, not_lt.mp hless⟩, fun _ => rfl⟩
  · simp [htracked]

/-- What the check of several lines accepts of one. -/
theorem checkStockQuantityBulk_standardCheck_iff {quantity : ℤ}
    (hlimit : 0 < quantity → ¬ ExceedsLimit db.purchases user variant quantity
      globalQuantityLimit) :
    checkStockQuantityBulk (standardCheck user countryCode channelSlug globalQuantityLimit) db
        [variant] [quantity] = .ok ()
      ↔ (0 < quantity →
        getVariantStocksForCountry db.toDb countryCode channelSlug variant.pk ≠ [] ∧
        (variant.trackInventory = true → quantity
          ≤ max ((getVariantStocksForCountry db.toDb countryCode channelSlug variant.pk).map
              (annotateAvailableQuantity db.toDb)).sum 0)) := by
  have heffective : (standardCheck user countryCode channelSlug
      globalQuantityLimit).effectiveQuantity variant quantity = quantity := rfl
  have hwithin : (standardCheck user countryCode channelSlug globalQuantityLimit).WithinLimits db
      ([variant].zip [quantity]) := by
    intro p hp hpos
    obtain rfl : p = (variant, quantity) := List.mem_singleton.mp hp
    exact hlimit hpos
  rw [checkStockQuantityBulk_eq_ok_iff hwithin, raisesInsufficientStock_iff hwithin]
  have hzip : [variant].zip [quantity] = [(variant, quantity)] := rfl
  rw [hzip]
  simp only [List.mem_singleton, exists_eq_left, heffective, variantStocks_standardCheck,
    availableQuantity_standardCheck]
  by_cases hpos : 0 < quantity
  · simp only [hpos, true_and, forall_const, not_or, not_and, not_lt, Ne]
  · simp only [hpos, false_and, not_false_eq_true, forall_false]

/-- What the checks need to accept the same: a stock, or an untracked variant that the customer may
not buy any more of. -/
def HasStockOrUsedUp (db : Store) (user : Option ℕ) (variant : Variant)
    (countryCode channelSlug : String) (globalQuantityLimit : Option ℤ) : Prop :=
  getVariantStocksForCountry db.toDb countryCode channelSlug variant.pk ≠ [] ∨
    variant.trackInventory = false ∧ ∀ quantity : ℤ, 0 < quantity →
      ExceedsLimit db.purchases user variant quantity globalQuantityLimit

/-- Where the quantities agree the checks accept the same if there is a stock. -/
theorem accepted_iff
    (hquantity : getAvailableQuantity db.toDb
        (getVariantStocksForCountry db.toDb countryCode channelSlug variant.pk)
      = max ((getVariantStocksForCountry db.toDb countryCode channelSlug variant.pk).map
          (annotateAvailableQuantity db.toDb)).sum 0) :
    (∀ quantity : ℤ,
      (0 < quantity → ¬ ExceedsLimit db.purchases user variant quantity globalQuantityLimit) →
      (checkStockQuantity db.toDb variant countryCode channelSlug quantity = .ok ()
        ↔ checkStockQuantityBulk (standardCheck user countryCode channelSlug globalQuantityLimit) db
            [variant] [quantity] = .ok ()))
      ↔ HasStockOrUsedUp db user variant countryCode channelSlug globalQuantityLimit := by
  constructor
  · intro h
    by_contra hnot
    rw [HasStockOrUsedUp, not_or, not_not, not_and] at hnot
    obtain ⟨hnone, hused⟩ := hnot
    by_cases htracked : variant.trackInventory = true
    · -- without a stock even nothing is refused, but a line of nothing is not looked at
      have hzero := h 0 fun hpos => absurd hpos (lt_irrefl 0)
      rw [checkStockQuantity_eq_ok_iff,
        checkStockQuantityBulk_standardCheck_iff fun hpos => absurd hpos (lt_irrefl 0)] at hzero
      exact (hzero.mpr (fun hpos => absurd hpos (lt_irrefl 0)) htracked).1 hnone
    · have hexists := hused (Bool.eq_false_iff.mpr htracked)
      simp only [not_forall, exists_prop] at hexists
      obtain ⟨quantity, hpos, hlimit⟩ := hexists
      have hiff := h quantity fun _ => hlimit
      rw [checkStockQuantity_eq_ok_iff,
        checkStockQuantityBulk_standardCheck_iff fun _ => hlimit] at hiff
      exact (hiff.mp (fun h => absurd h htracked) hpos).1 hnone
  · intro h quantity hlimit
    rw [checkStockQuantity_eq_ok_iff, checkStockQuantityBulk_standardCheck_iff hlimit, hquantity]
    rcases h with hsome | ⟨huntracked, hused⟩
    · constructor
      · exact fun hone hpos => ⟨hsome, fun htracked => (hone htracked).2⟩
      · intro hseveral htracked
        refine ⟨hsome, ?_⟩
        by_cases hpos : 0 < quantity
        · exact (hseveral hpos).2 htracked
        · exact (not_lt.mp hpos).trans (le_max_right _ _)
    · constructor
      · exact fun _ hpos => absurd (hused quantity hpos) (hlimit hpos)
      · exact fun _ htracked => absurd htracked (by simp [huntracked])

/-- A product is said to be in stock rightly if not all that is not empty is overdrawn. -/
theorem inStock_iff :
    (isProductInStock db product countryCode channelSlug = true →
      ∃ s ∈ getProductStocksForCountryAndChannel db countryCode channelSlug product,
        0 < annotateAvailableQuantity db.toDb s)
      ↔ ∀ s ∈ getProductStocksForCountryAndChannel db countryCode channelSlug product,
        annotateAvailableQuantity db.toDb s < 0 →
        ∃ s' ∈ getProductStocksForCountryAndChannel db countryCode channelSlug product,
          0 < annotateAvailableQuantity db.toDb s' := by
  rw [isProductInStock, List.any_eq_true]
  constructor
  · exact fun h s hs hneg => h ⟨s, hs, decide_eq_true hneg.ne⟩
  · rintro h ⟨s, hs, hne⟩
    rcases lt_or_gt_of_ne (of_decide_eq_true hne) with hneg | hpos
    · exact h s hs hneg
    · exact ⟨s, hs, hpos⟩

/-- **The computations agree** exactly if no quantity that stands twice among the variant's stocks
is missed, the variant has a stock, and the product has none that is overdrawn without one that has
something left. -/
theorem availabilitiesAgree_iff (db : Store) (user : Option ℕ) (variant : Variant) (product : ℕ)
    (countryCode channelSlug : String) (globalQuantityLimit : Option ℤ) :
    AvailabilitiesAgree db user variant product countryCode channelSlug globalQuantityLimit
      ↔ CountedOnce db.toDb
          (getVariantStocksForCountry db.toDb countryCode channelSlug variant.pk) ∧
        HasStockOrUsedUp db user variant countryCode channelSlug globalQuantityLimit ∧
        ∀ s ∈ getProductStocksForCountryAndChannel db countryCode channelSlug product,
          annotateAvailableQuantity db.toDb s < 0 →
          ∃ s' ∈ getProductStocksForCountryAndChannel db countryCode channelSlug product,
            0 < annotateAvailableQuantity db.toDb s' := by
  constructor
  · rintro ⟨hquantity, haccepted, hinStock⟩
    exact ⟨(getAvailableQuantity_eq_iff _ _).mp hquantity, (accepted_iff hquantity).mp haccepted,
      inStock_iff.mp hinStock⟩
  · rintro ⟨hcounted, hstock, hinStock⟩
    have hquantity := (getAvailableQuantity_eq_iff _ _).mpr hcounted
    exact ⟨hquantity, (accepted_iff hquantity).mpr hstock, inStock_iff.mpr hinStock⟩

end Agreement

/-! ### Two warehouses with equally many items -/

/-- Two warehouses of a channel, each with five items of the first variant; the first warehouse owes
one item of the second. -/
def twoWarehouses : Store where
  channels := .singleton { pk := 1, slug := "main" }
  channelWarehouses := ⟨[{ pk := 1, channel := 1, warehouse := 1 },
    { pk := 2, channel := 1, warehouse := 2 }], by decide⟩
  warehouses := ⟨[{ pk := 1, shippingZones := [1] }, { pk := 2, shippingZones := [1] }], by decide⟩
  shippingZones := .singleton { pk := 1, countries := ["PL"], channels := [1] }
  stocks := ⟨[{ pk := 1, warehouse := 1, productVariant := 1, quantity := 5 },
    { pk := 2, warehouse := 2, productVariant := 1, quantity := 5 },
    { pk := 3, warehouse := 1, productVariant := 2, quantity := -1 }], by decide⟩
  catalogue := ⟨[{ pk := 1, product := 1 }, { pk := 2, product := 2 }], by decide⟩

/-- Five of the ten items are missed, and a product of which an item is owed is in stock. -/
theorem not_availabilitiesAgree_twoWarehouses :
    ¬ AvailabilitiesAgree twoWarehouses none { pk := 1, product := 1 } 1 "PL" "main" none ∧
    ¬ AvailabilitiesAgree twoWarehouses none { pk := 2, product := 2 } 2 "PL" "main" none := by
  constructor
  · intro h
    exact absurd h.quantity (by decide)
  · intro h
    exact absurd (h.inStock (by decide)) (by decide)

end Stocks

end Aixinwu
