import Aixinwu.Lib.Table
import Aixinwu.Order.Models

/-!
# Stocks, allocations and reservations

The rows of `saleor/warehouse/models.py`, and what allocating reads of channels, shipping zones,
variants and orders. A stock is how many items of a variant a warehouse has; allocations take items of a stock
for a line of an order, reservations hold some for a line of a checkout until a time, and preorders
have allocations and reservations of their own, against the thresholds of a channel listing.

`Allocation`, `PreorderAllocation` and `PreorderReservation` are unique for a line and a stock or
listing. Their own ids are read by nobody, so the pair is the key here, and the constraint is the
table's. Rows stand in the order of their ids. Item counts that the database checks to be
non-negative are natural numbers. A `Reservation` is unique for a checkout line and a stock, if it
has a checkout line. Warehouses stand in the order of their slugs, the last first.

## Main definitions

* `Stock`, `Allocation`, `Reservation`, `PreorderAllocation`, `PreorderReservation`
* `ProductVariant.isPreorderActive`
* `OrderLineInfo`, `InsufficientStockData`, `AllocateError`
* `Db`
-/

namespace Aixinwu

namespace Stocks

/-! ### Channels and warehouses -/

/-- `channel.AllocationStrategy`. -/
inductive AllocationStrategy where
  | prioritizeSortingOrder
  | prioritizeHighStock
deriving DecidableEq, Repr

/-- `channel.models.Channel`, as far as allocating reads it. -/
structure Channel where
  pk : ℕ
  slug : String
  allocationStrategy : AllocationStrategy := .prioritizeSortingOrder
deriving DecidableEq, Repr

instance : HasPk Channel ℕ := ⟨Channel.pk⟩

/-- `shipping.models.ShippingZone`. -/
structure ShippingZone where
  pk : ℕ
  countries : List String
  channels : List ℕ
deriving DecidableEq, Repr

instance : HasPk ShippingZone ℕ := ⟨ShippingZone.pk⟩

/-- `warehouse.WarehouseClickAndCollectOption`. -/
inductive WarehouseClickAndCollectOption where
  | disabled
  | localStock
  | allWarehouses
deriving DecidableEq, Repr

/-- `warehouse.models.Warehouse`. -/
structure Warehouse where
  pk : ℕ
  shippingZones : List ℕ := []
  clickAndCollectOption : WarehouseClickAndCollectOption := .disabled
deriving DecidableEq, Repr

instance : HasPk Warehouse ℕ := ⟨Warehouse.pk⟩

/-- `warehouse.models.ChannelWarehouse`. -/
structure ChannelWarehouse where
  pk : ℕ
  sortOrder : Option ℤ := none
  channel : ℕ
  warehouse : ℕ
deriving DecidableEq, Repr

instance : HasPk ChannelWarehouse ℕ := ⟨ChannelWarehouse.pk⟩

/-! ### Variants -/

/-- `product.models.ProductVariant`, as far as stocks are concerned. -/
structure ProductVariant where
  pk : ℕ
  trackInventory : Bool := true
  isPreorder : Bool := false
  preorderEndDate : Option Time := none
  preorderGlobalThreshold : Option ℤ := none
  returnOnCancel : Bool := false
deriving DecidableEq, Repr

instance : HasPk ProductVariant ℕ := ⟨ProductVariant.pk⟩

/-- `is_preorder_active`. -/
def ProductVariant.isPreorderActive (v : ProductVariant) (now : Time) : Bool :=
  v.isPreorder && match v.preorderEndDate with
    | none => true
    | some endDate => decide (now ≤ endDate)

/-- `product.models.ProductVariantChannelListing`. -/
structure ProductVariantChannelListing where
  pk : ℕ
  variant : ℕ
  channel : ℕ
  preorderQuantityThreshold : Option ℤ := none
deriving DecidableEq, Repr

instance : HasPk ProductVariantChannelListing ℕ := ⟨ProductVariantChannelListing.pk⟩

/-! ### Orders -/

/-- `order.models.Order`, as far as stocks are concerned. `shippingZone` is the zone of its shipping
method, `country` what `get_order_country` answers. -/
structure Order where
  pk : ℕ
  status : OrderStatus
  shippingZone : Option ℕ := none
  country : String := ""
deriving DecidableEq, Repr

instance : HasPk Order ℕ := ⟨Order.pk⟩

/-- `order.models.OrderLine`, as far as stocks are concerned. -/
structure OrderLine where
  pk : ℕ
  order : ℕ
  variant : Option ℕ := none
deriving DecidableEq, Repr

instance : HasPk OrderLine ℕ := ⟨OrderLine.pk⟩

/-! ### Stocks -/

/-- `warehouse.models.Stock`. -/
structure Stock where
  pk : ℕ
  warehouse : ℕ
  productVariant : ℕ
  quantity : ℤ := 0
  quantityAllocated : ℤ := 0
deriving DecidableEq, Repr

instance : HasPk Stock ℕ := ⟨Stock.pk⟩

@[simp] theorem pk_stock (s : Stock) : HasPk.pk s = s.pk := rfl

/-- `warehouse.models.Allocation`. -/
structure Allocation where
  orderLine : ℕ
  stock : ℕ
  quantityAllocated : ℕ := 0
deriving DecidableEq, Repr

instance : HasPk Allocation (ℕ × ℕ) := ⟨fun a => (a.orderLine, a.stock)⟩

/-- `warehouse.models.Reservation`. -/
structure Reservation where
  checkoutLine : Option ℕ := none
  stock : ℕ
  quantityReserved : ℕ := 0
  reservedUntil : Time
deriving DecidableEq, Repr

/-- The pair that is unique; a row without a checkout line does not count. -/
def Reservation.key? (r : Reservation) : Option (ℕ × ℕ) := r.checkoutLine.map fun l => (l, r.stock)

/-- The rows of `Reservation`. -/
structure Reservations where
  rows : List Reservation
  unique : (rows.filterMap Reservation.key?).Nodup

namespace Reservations

/-- The table without rows. -/
def empty : Reservations := ⟨[], List.nodup_nil⟩

/-- `filter(p).delete()`. -/
def delete (t : Reservations) (p : Reservation → Bool) : Reservations where
  rows := t.rows.filter (!p ·)
  unique := (List.filter_sublist.filterMap Reservation.key?).nodup t.unique

/-- `filter(p).update(reserved_until=…)`. -/
def refresh (t : Reservations) (p : Reservation → Bool) (reservedUntil : Time) : Reservations where
  rows := t.rows.map fun r => if p r then { r with reservedUntil } else r
  unique := by
    have hkey : (fun r => Reservation.key? (if p r then { r with reservedUntil } else r))
        = Reservation.key? := by
      funext r
      split <;> rfl
    have hrows : (t.rows.map fun r => if p r then { r with reservedUntil } else r).filterMap
        Reservation.key? = t.rows.filterMap Reservation.key? := by
      rw [List.filterMap_map]
      exact congrArg (List.filterMap · t.rows) hkey
    rw [hrows]
    exact t.unique

/-- `bulk_create(rs)`. -/
def bulkCreate (t : Reservations) (rs : List Reservation) : Option Reservations :=
  if h : ((t.rows ++ rs).filterMap Reservation.key?).Nodup then some ⟨t.rows ++ rs, h⟩ else none

theorem bulkCreate_eq_some {t u : Reservations} {rs : List Reservation}
    (h : t.bulkCreate rs = some u) : u.rows = t.rows ++ rs := by
  rw [bulkCreate] at h
  split at h
  · cases h
    rfl
  · cases h

end Reservations

/-- `warehouse.models.PreorderAllocation`. -/
structure PreorderAllocation where
  orderLine : ℕ
  quantity : ℕ := 0
  productVariantChannelListing : ℕ
deriving DecidableEq, Repr

instance : HasPk PreorderAllocation (ℕ × ℕ) :=
  ⟨fun a => (a.orderLine, a.productVariantChannelListing)⟩

/-- `warehouse.models.PreorderReservation`. -/
structure PreorderReservation where
  checkoutLine : ℕ
  productVariantChannelListing : ℕ
  quantityReserved : ℕ := 0
  reservedUntil : Time
deriving DecidableEq, Repr

instance : HasPk PreorderReservation (ℕ × ℕ) :=
  ⟨fun r => (r.checkoutLine, r.productVariantChannelListing)⟩

/-! ### The database, and what the operations take and raise -/

/-- The tables. -/
structure Db where
  channels : Table Channel := .empty
  channelWarehouses : Table ChannelWarehouse := .empty
  warehouses : Table Warehouse := .empty
  shippingZones : Table ShippingZone := .empty
  variants : Table ProductVariant := .empty
  channelListings : Table ProductVariantChannelListing := .empty
  orders : Table Order := .empty
  orderLines : Table OrderLine := .empty
  stocks : Table Stock := .empty
  allocations : Table Allocation := .empty
  reservations : Reservations := .empty
  preorderAllocations : Table PreorderAllocation := .empty
  preorderReservations : Table PreorderReservation := .empty

/-- `order.fetch.OrderLineInfo`: a line of an order by its key, its variant as fetched, and how many
items the operation is about. -/
structure OrderLineInfo where
  line : ℕ
  quantity : ℤ
  variant : Option ProductVariant := none
  warehousePk : Option ℕ := none
deriving DecidableEq, Repr

theorem any_pk_iff {variant : Option ProductVariant} {k : ℕ} :
    (variant.any (·.pk = k)) = true ↔ variant.map (·.pk) = some k := by
  cases variant <;> simp

/-- The lines with a variant. -/
def linesWith (infos : List OrderLineInfo) (variant : ℕ) : List OrderLineInfo :=
  infos.filter fun info => info.variant.any (·.pk = variant)

/-- `core.exceptions.InsufficientStockData`. -/
structure InsufficientStockData where
  availableQuantity : ℤ
  variant : Option ProductVariant := none
  orderLine : Option ℕ := none
  warehousePk : Option ℕ := none
deriving DecidableEq, Repr

/-- What the operations on stocks raise. -/
inductive AllocateError where
  | insufficientStock (items : List InsufficientStockData)
  | preorderAllocation (orderLine : ℕ)
  | assertionError
  | attributeError
  | indexError
  | keyError
  | typeError
  | valueError
  | integrityError
deriving DecidableEq, Repr

end Stocks

end Aixinwu
