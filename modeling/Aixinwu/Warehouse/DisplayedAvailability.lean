import Aixinwu.Lib.Grouping
import Aixinwu.Warehouse.Availability

/-!
# The quantity that is displayed

`AvailableQuantityByProductVariantIdCountryCodeAndChannelSlugLoader` of
`graphql/warehouse/dataloaders.py`. The stocks of a variant are those in warehouses with a shipping
zone for the country and the channel, and, where the country is not known, in collection points of the
channel. They are put in three maps: the warehouses by variant and zone, where a collection point
without a zone is one of its own, the variants that a collection point offers from all warehouses, and
the quantities by warehouse and variant. If the country is known, or there is such a collection point,
the quantities of the distinct warehouses are added up.

Otherwise the quantities of the zones are added up, so a warehouse counts once for each of its zones.
And a quantity is lowered by all reservations of the stock, the expired ones as well.

## Main definitions

* `batchLoad` and its parts
* `freeItems` — what a stock really has left
* `DisplaysFree` — what is displayed is what is there

## Main results

* `batchLoad_getElem?` — the quantity in terms of the stocks, each counted so often
* `displaysFree_iff`
-/

namespace Aixinwu

namespace Stocks

/-! ### The loader -/

/-- A text that is true: neither `None` nor empty. -/
def truthyText (text : Option String) : Option String := text.filter (· ≠ "")

/-- The key of the loader. -/
structure AvailabilityKey where
  variant : ℕ
  countryCode : Option String := none
  channelSlug : Option String := none
deriving DecidableEq, Repr

/-- A shipping zone, or a collection point for itself. -/
abbrev ZoneKey := ℕ ⊕ ℕ

section Loader

variable (db : Db)

/-- `get_warehouse_shipping_zones`: warehouses with a zone. -/
def getWarehouseShippingZones (countryCode channelSlug : Option String) : List (ℕ × ℕ) :=
  (db.warehouses.rows.flatMap fun w => w.shippingZones.map fun zone => (w.pk, zone)).filter
    fun row =>
      ((truthyText countryCode).all fun code =>
        db.shippingZones.rows.any fun zone => zone.pk = row.2 && code ∈ zone.countries) &&
      (truthyText channelSlug).all fun slug =>
        (db.shippingZones.rows.any fun zone =>
          zone.pk = row.2 && zone.channels.any (· ∈ channelsWith db slug))
        && row.1 ∈ warehouseChannels db slug

/-- `get_click_and_collect_warehouses`. -/
def getClickAndCollectWarehouses (channelSlug countryCode : Option String) : List Warehouse :=
  match truthyText countryCode, truthyText channelSlug with
  | none, some slug => db.warehouses.rows.filter fun w =>
      w.pk ∈ warehouseChannels db slug && w.clickAndCollectOption ≠ .disabled
  | _, _ => []

/-- `warehouse_shipping_zones_map[warehouse]`. -/
def warehouseShippingZonesMap (warehouseShippingZones : List (ℕ × ℕ)) (warehouse : ℕ) : List ℕ :=
  (warehouseShippingZones.filter (·.1 = warehouse)).map (·.2)

/-- `prepare_stocks_reservations_map`, with `annotate_reserved_quantity`. -/
def prepareStocksReservationsMap (stock : ℕ) : ℤ :=
  sumIf (fun r => decide (r.stock = stock)) (fun r : Reservation => (r.quantityReserved : ℤ))
    db.reservations.rows

/-- The quantity of a stock, which is not clipped where the stock may be exceeded. -/
def clippedQuantity (s : Stock) : ℤ :=
  let availableQuantity := annotateAvailableQuantity db s
  let quantity := availableQuantity - prepareStocksReservationsMap db s.pk
  if 0 < availableQuantity then max 0 quantity else quantity

/-- The three maps of `prepare_warehouse_ids_by_shipping_zone_and_variant_map`. -/
structure QuantityMaps where
  warehouseIdsByShippingZone : ℕ → List (ZoneKey × List ℕ) := fun _ => []
  variantsWithGlobalCcWarehouses : List ℕ := []
  availableQuantity : ℕ → ℕ → ℤ := fun _ _ => 0

/-- A round of the loop over the stocks. A warehouse without a zone is a collection point, or its
stock would not have been found. -/
def QuantityMaps.add (zonesOf : ℕ → List ℕ) (ccWarehouses : List Warehouse) (m : QuantityMaps)
    (s : Stock) : QuantityMaps where
  warehouseIdsByShippingZone := Function.update m.warehouseIdsByShippingZone s.productVariant
    (if zonesOf s.warehouse ≠ [] then
      (zonesOf s.warehouse).foldl (fun zones zone =>
        Grouping.alter [] (Sum.inl zone) (· ++ [s.warehouse]) zones)
          (m.warehouseIdsByShippingZone s.productVariant)
    else
      Grouping.alter [] (Sum.inr s.warehouse) (fun _ => [s.warehouse])
        (m.warehouseIdsByShippingZone s.productVariant))
  variantsWithGlobalCcWarehouses :=
    if zonesOf s.warehouse = [] && ccWarehouses.any fun w =>
        w.pk = s.warehouse && w.clickAndCollectOption = .allWarehouses then
      m.variantsWithGlobalCcWarehouses ++ [s.productVariant]
    else m.variantsWithGlobalCcWarehouses
  availableQuantity := fun warehouse variant =>
    m.availableQuantity warehouse variant
      + if warehouse = s.warehouse ∧ variant = s.productVariant then clippedQuantity db s else 0

/-- `quantity_map[variant]` of `prepare_quantity_map`. -/
def prepareQuantityMap (countryCode : Option String) (m : QuantityMaps) (variant : ℕ) : ℤ :=
  let zones := m.warehouseIdsByShippingZone variant
  if (truthyText countryCode).isSome || variant ∈ m.variantsWithGlobalCcWarehouses then
    let usedWarehouseIds := (zones.flatMap (·.2)).dedup
    (usedWarehouseIds.map fun w => m.availableQuantity w variant).sum
  else
    let quantityValues := zones.map fun e => (e.2.map fun w => m.availableQuantity w variant).sum
    quantityValues.sum

/-- The stocks that are looked at. -/
def stocksInScope (countryCode channelSlug : Option String) (variantIds : List ℕ) : List Stock :=
  db.stocks.rows.filter fun s =>
    s.productVariant ∈ variantIds &&
      (s.warehouse ∈ (getWarehouseShippingZones db countryCode channelSlug).map (·.1) ||
        s.warehouse ∈ (getClickAndCollectWarehouses db channelSlug countryCode).map (·.pk))

/-- `batch_load_quantities_by_country`, for one of the variants. -/
def batchLoadQuantitiesByCountry (countryCode channelSlug : Option String) (variantIds : List ℕ)
    (variant : ℕ) : ℤ :=
  let zonesOf :=
    warehouseShippingZonesMap (getWarehouseShippingZones db countryCode channelSlug)
  let ccWarehouses := getClickAndCollectWarehouses db channelSlug countryCode
  let maps := (stocksInScope db countryCode channelSlug variantIds).foldl
    (QuantityMaps.add db zonesOf ccWarehouses) {}
  prepareQuantityMap countryCode maps variant

/-- `batch_load`: the keys are split by country and channel, and each has the quantity of its part. -/
def batchLoad (keys : List AvailabilityKey) : List ℤ :=
  keys.map fun key =>
    let variantIds := (keys.filter fun k =>
      k.countryCode = key.countryCode && k.channelSlug = key.channelSlug).map (·.variant)
    max 0 (batchLoadQuantitiesByCountry db key.countryCode key.channelSlug variantIds key.variant)

end Loader

/-! ### What is there -/

section Free

variable (db : Db) (now : Time)

/-- What the reservations of a stock hold that have not expired. -/
def heldUnexpired (s : Stock) : ℤ :=
  sumIf (fun r => decide (r.stock = s.pk) && decide (now < r.reservedUntil))
    (fun r : Reservation => (r.quantityReserved : ℤ)) db.reservations.rows

/-- What the reservations of a stock held that have expired. -/
def heldExpired (s : Stock) : ℤ :=
  sumIf (fun r => decide (r.stock = s.pk) && !decide (now < r.reservedUntil))
    (fun r : Reservation => (r.quantityReserved : ℤ)) db.reservations.rows

/-- **What a stock has left.** -/
def freeItems (s : Stock) : ℤ := s.quantity - allocatedOf db s - heldUnexpired db now s

/-- The stocks of a variant in the eligible warehouses; a warehouse has one. -/
def eligibleStocks (key : AvailabilityKey) : List Stock :=
  stocksInScope db key.countryCode key.channelSlug [key.variant]

/-- The reservations without the expired ones. -/
def withoutExpired : Db :=
  { db with reservations := db.reservations.delete fun r => !decide (now < r.reservedUntil) }

/-- **The quantity that is displayed is what is there**: at most what the eligible warehouses have
left, just that if the country is known, and the same as if no reservation had expired. -/
structure DisplaysFree (keys : List AvailabilityKey) (i : ℕ) (key : AvailabilityKey) (n : ℤ) :
    Prop where
  at_most : n ≤ max 0 ((eligibleStocks db key).map (freeItems db now)).sum
  exactly : (truthyText key.countryCode).isSome →
    n = max 0 ((eligibleStocks db key).map (freeItems db now)).sum
  unexpired : (batchLoad (withoutExpired db now) keys)[i]? = some n

/-- What the database guarantees, and what is allocated and reserved fits into the stocks. -/
structure FitsInto : Prop where
  unique : (db.stocks.rows.map fun s => (s.warehouse, s.productVariant)).Nodup
  fits : ∀ s ∈ db.stocks, allocatedOf db s + heldUnexpired db now s ≤ s.quantity

/-- The shipping zones that a stock is found in. -/
def zonesOfStock (key : AvailabilityKey) (s : Stock) : List ℕ :=
  warehouseShippingZonesMap (getWarehouseShippingZones db key.countryCode key.channelSlug) s.warehouse

/-- A collection point without a zone offers the variant from all warehouses. -/
def OfferedEverywhere (key : AvailabilityKey) : Prop :=
  ∃ s ∈ eligibleStocks db key, zonesOfStock db key s = [] ∧
    ∃ w ∈ getClickAndCollectWarehouses db key.channelSlug key.countryCode,
      w.pk = s.warehouse ∧ w.clickAndCollectOption = .allWarehouses

/-- **The condition**: nothing is left at all; or no expired reservation is on an eligible stock (but
where nothing is left, and not all is allocated), and if the country is not known, and no collection
point offers the variant from everywhere, then every stock that has something left is in one zone. -/
def ShownRight (key : AvailabilityKey) : Prop :=
  (∀ s ∈ eligibleStocks db key, freeItems db now s = 0) ∨
    (∀ s ∈ eligibleStocks db key, heldExpired db now s = 0 ∨
      (freeItems db now s = 0 ∧ allocatedOf db s < s.quantity)) ∧
    ((truthyText key.countryCode).isSome ∨ OfferedEverywhere db key ∨
      ∀ s ∈ eligibleStocks db key, 0 < freeItems db now s → (zonesOfStock db key s).length ≤ 1)

end Free

/-! ### The maps -/

section Maps

variable {db : Db} {zonesOf : ℕ → List ℕ} {ccWarehouses : List Warehouse} {variant : ℕ}

/-- How often a stock is counted when the zones are added up. -/
def weight (zonesOf : ℕ → List ℕ) (s : Stock) : ℤ := max 1 (zonesOf s.warehouse).length

/-- A warehouse is entered for each of its zones. -/
theorem total_foldl_zones (g : ℕ → ℤ) (w : ℕ) (zs : List ℕ) (m : List (ZoneKey × List ℕ)) :
    Grouping.total g (zs.foldl (fun zones zone =>
        Grouping.alter [] (Sum.inl zone) (· ++ [w]) zones) m)
      = Grouping.total g m + zs.length * g w := by
  induction zs generalizing m with
  | nil => simp
  | cons z zs ih =>
    rw [List.foldl_cons, ih, Grouping.total_alter_append, List.length_cons]
    push_cast
    ring

theorem mem_values_foldl_zones {w w' : ℕ} (zs : List ℕ) (m : List (ZoneKey × List ℕ)) :
    w' ∈ (zs.foldl (fun zones zone =>
        Grouping.alter [] (Sum.inl zone) (· ++ [w]) zones) m).flatMap (·.2) ↔
      (zs ≠ [] ∧ w' = w) ∨ w' ∈ m.flatMap (·.2) := by
  induction zs generalizing m with
  | nil => simp
  | cons z zs ih =>
    rw [List.foldl_cons, ih, Grouping.mem_values_alter_append]
    simp only [ne_eq, reduceCtorEq, not_false_eq_true, true_and]
    tauto

theorem mem_keys_foldl_zones {w w' : ℕ} (zs : List ℕ) (m : List (ZoneKey × List ℕ)) :
    Sum.inr w' ∈ (zs.foldl (fun zones zone =>
        Grouping.alter [] (Sum.inl zone) (· ++ [w]) zones) m).map (·.1) ↔
      Sum.inr w' ∈ m.map (·.1) := by
  induction zs generalizing m with
  | nil => exact Iff.rfl
  | cons z zs ih =>
    rw [List.foldl_cons, ih, Grouping.mem_keys_alter]
    simp

/-- What a round makes of the zones of the stock's variant, if its warehouse is not there as a
collection point. -/
theorem zones_add {m : QuantityMaps} {s : Stock}
    (hfresh : Sum.inr s.warehouse ∉ (m.warehouseIdsByShippingZone s.productVariant).map (·.1)) :
    (∀ g : ℕ → ℤ, Grouping.total g
        ((m.add db zonesOf ccWarehouses s).warehouseIdsByShippingZone s.productVariant)
      = Grouping.total g (m.warehouseIdsByShippingZone s.productVariant)
        + weight zonesOf s * g s.warehouse) ∧
      (∀ w, w ∈ ((m.add db zonesOf ccWarehouses s).warehouseIdsByShippingZone
          s.productVariant).flatMap (·.2) ↔
        w = s.warehouse ∨ w ∈ (m.warehouseIdsByShippingZone s.productVariant).flatMap (·.2)) ∧
      ∀ w, Sum.inr w ∈ ((m.add db zonesOf ccWarehouses s).warehouseIdsByShippingZone
          s.productVariant).map (·.1) →
        w = s.warehouse ∨ Sum.inr w ∈ (m.warehouseIdsByShippingZone s.productVariant).map (·.1) := by
  rw [QuantityMaps.add]
  simp only [Function.update_self]
  by_cases hzones : zonesOf s.warehouse = []
  · rw [if_neg (not_not.mpr hzones), Grouping.alter_of_not_mem hfresh, weight, hzones]
    refine ⟨fun g => ?_, fun w => ?_, fun w hw => ?_⟩
    · rw [Grouping.total_append]
      simp [Grouping.total]
    · rw [List.flatMap_append, List.mem_append]
      simp [or_comm]
    · rw [List.map_append, List.mem_append] at hw
      rcases hw with hold | hnew
      · exact .inr hold
      · exact .inl (by simpa using hnew)
  · rw [if_pos hzones, weight]
    have hlength : 1 ≤ (zonesOf s.warehouse).length :=
      List.length_pos_of_ne_nil hzones
    refine ⟨fun g => ?_, fun w => ?_, fun w hw => ?_⟩
    · rw [total_foldl_zones, max_eq_right (by omega)]
    · rw [mem_values_foldl_zones]
      tauto
    · exact .inr ((mem_keys_foldl_zones _ _).mp hw)

theorem zones_add_of_ne {m : QuantityMaps} {s : Stock} (h : s.productVariant ≠ variant) :
    (m.add db zonesOf ccWarehouses s).warehouseIdsByShippingZone variant
      = m.warehouseIdsByShippingZone variant := by
  rw [QuantityMaps.add]
  exact Function.update_of_ne (Ne.symm h) _ _

/-- **The zones of a variant** after the loop: each stock is counted with its weight, and every
warehouse is there. -/
theorem zones_foldl {stocks : List Stock}
    (hunique : ((stocks.filter (·.productVariant = variant)).map (·.warehouse)).Nodup)
    (m : QuantityMaps)
    (hfresh : ∀ s ∈ stocks, s.productVariant = variant →
      Sum.inr s.warehouse ∉ (m.warehouseIdsByShippingZone variant).map (·.1)) :
    (∀ g : ℕ → ℤ, Grouping.total g ((stocks.foldl (QuantityMaps.add db zonesOf ccWarehouses)
        m).warehouseIdsByShippingZone variant)
      = Grouping.total g (m.warehouseIdsByShippingZone variant)
        + sumIf (fun s => decide (s.productVariant = variant))
          (fun s => weight zonesOf s * g s.warehouse) stocks) ∧
      ∀ w, w ∈ ((stocks.foldl (QuantityMaps.add db zonesOf ccWarehouses)
          m).warehouseIdsByShippingZone variant).flatMap (·.2) ↔
        (∃ s ∈ stocks, s.productVariant = variant ∧ s.warehouse = w) ∨
          w ∈ (m.warehouseIdsByShippingZone variant).flatMap (·.2) := by
  induction stocks generalizing m with
  | nil => simp
  | cons s stocks ih =>
    obtain ⟨hs, hstocks⟩ := List.forall_mem_cons.mp hfresh
    simp only [List.foldl_cons, sumIf_cons, List.exists_mem_cons_iff]
    by_cases hvariant : s.productVariant = variant
    · have hfilter : (s :: stocks).filter (·.productVariant = variant)
          = s :: stocks.filter (·.productVariant = variant) := by simp [hvariant]
      rw [hfilter, List.map_cons, List.nodup_cons] at hunique
      have hs := hs hvariant
      subst hvariant
      obtain ⟨htotal, hvalues, hkeys⟩ := @zones_add db zonesOf ccWarehouses m s hs
      have hfresh' : ∀ t ∈ stocks, t.productVariant = s.productVariant → Sum.inr t.warehouse
          ∉ ((m.add db zonesOf ccWarehouses s).warehouseIdsByShippingZone s.productVariant).map
            (·.1) := by
        intro t ht htv hmem
        rcases hkeys _ hmem with heq | hold
        · refine hunique.1 (heq ▸ List.mem_map_of_mem (List.mem_filter.mpr ⟨ht, ?_⟩))
          exact decide_eq_true htv
        · exact hstocks t ht htv hold
      obtain ⟨ihtotal, ihvalues⟩ := ih hunique.2 _ hfresh'
      refine ⟨fun g => ?_, fun w => ?_⟩
      · rw [ihtotal, htotal]
        simp only [decide_true, if_true]
        ring
      · rw [ihvalues, hvalues, @eq_comm ℕ w s.warehouse]
        simp only [true_and]
        rw [or_left_comm, or_assoc]
    · have hfilter : (s :: stocks).filter (·.productVariant = variant)
          = stocks.filter (·.productVariant = variant) := by simp [hvariant]
      rw [hfilter] at hunique
      have hsame := @zones_add_of_ne db zonesOf ccWarehouses variant m s hvariant
      obtain ⟨ihtotal, ihvalues⟩ := ih hunique (m.add db zonesOf ccWarehouses s) (by
        rw [hsame]
        exact hstocks)
      refine ⟨fun g => ?_, fun w => ?_⟩
      · rw [ihtotal, hsame]
        simp [hvariant]
      · rw [ihvalues, hsame]
        simp [hvariant]

theorem availableQuantity_foldl (stocks : List Stock) (m : QuantityMaps) (w : ℕ) :
    (stocks.foldl (QuantityMaps.add db zonesOf ccWarehouses) m).availableQuantity w variant
      = m.availableQuantity w variant
        + sumIf (fun s => decide (w = s.warehouse ∧ variant = s.productVariant)) (clippedQuantity db)
          stocks := by
  induction stocks generalizing m with
  | nil => simp
  | cons s stocks ih =>
    rw [List.foldl_cons, ih, sumIf_cons, QuantityMaps.add]
    simp only [decide_eq_true_eq]
    ring

theorem variantsWithGlobalCcWarehouses_foldl (stocks : List Stock) (m : QuantityMaps) :
    variant ∈ (stocks.foldl (QuantityMaps.add db zonesOf ccWarehouses)
        m).variantsWithGlobalCcWarehouses ↔
      variant ∈ m.variantsWithGlobalCcWarehouses ∨ ∃ s ∈ stocks, s.productVariant = variant ∧
        zonesOf s.warehouse = [] ∧ ∃ w ∈ ccWarehouses,
          w.pk = s.warehouse ∧ w.clickAndCollectOption = .allWarehouses := by
  induction stocks generalizing m with
  | nil => simp
  | cons s stocks ih =>
    rw [List.foldl_cons, ih, List.exists_mem_cons_iff, ← or_assoc]
    refine or_congr ?_ Iff.rfl
    rw [QuantityMaps.add]
    simp only [Bool.and_eq_true, decide_eq_true_eq, List.any_eq_true]
    split_ifs with hall
    · rw [List.mem_append, List.mem_singleton]
      simp only [hall.1, true_and]
      constructor
      · rintro (h | rfl)
        · exact .inl h
        · exact .inr ⟨rfl, hall.2⟩
      · rintro (h | ⟨rfl, -⟩)
        · exact .inl h
        · exact .inr rfl
    · refine (or_iff_left ?_).symm
      rintro ⟨-, hzones, hcc⟩
      exact hall ⟨hzones, hcc⟩

end Maps

/-! ### What the loader answers -/

section Answer

variable {db : Db} {now : Time} {key : AvailabilityKey} {variantIds : List ℕ}

/-- The stocks of a variant among those that are looked at are its eligible stocks. -/
theorem filter_stocksInScope (h : key.variant ∈ variantIds) :
    (stocksInScope db key.countryCode key.channelSlug variantIds).filter
        (·.productVariant = key.variant)
      = eligibleStocks db key := by
  rw [eligibleStocks, stocksInScope, stocksInScope, List.filter_filter]
  refine List.filter_congr fun s _ => ?_
  by_cases hs : s.productVariant = key.variant
  · simp [hs, h]
  · simp [hs]

theorem productVariant_of_eligible {s : Stock} (hs : s ∈ eligibleStocks db key) :
    s.productVariant = key.variant := by
  have hmem := (Bool.and_eq_true_iff.mp (List.mem_filter.mp hs).2).1
  simpa using hmem

/-- A warehouse has one eligible stock. -/
theorem nodup_eligible (hdb : FitsInto db now) :
    ((eligibleStocks db key).map (·.warehouse)).Nodup := by
  have hpairs : ((eligibleStocks db key).map fun s => (s.warehouse, s.productVariant)).Nodup :=
    (List.filter_sublist.map _).nodup hdb.unique
  rw [List.Nodup, List.pairwise_map] at hpairs ⊢
  refine hpairs.imp_of_mem fun {s t} hs ht hne heq => hne (Prod.ext heq ?_)
  exact (productVariant_of_eligible hs).trans (productVariant_of_eligible ht).symm

/-- The maps for a key. -/
def mapsFor (db : Db) (key : AvailabilityKey) (variantIds : List ℕ) : QuantityMaps :=
  (stocksInScope db key.countryCode key.channelSlug variantIds).foldl
    (QuantityMaps.add db
      (warehouseShippingZonesMap
        (getWarehouseShippingZones db key.countryCode key.channelSlug))
      (getClickAndCollectWarehouses db key.channelSlug key.countryCode)) {}

/-- The quantity of a warehouse is that of its eligible stock. -/
theorem availableQuantity_mapsFor (hdb : FitsInto db now) (h : key.variant ∈ variantIds) {s : Stock}
    (hs : s ∈ eligibleStocks db key) :
    (mapsFor db key variantIds).availableQuantity s.warehouse key.variant = clippedQuantity db s := by
  have hsplit : sumIf (fun t => decide (s.warehouse = t.warehouse ∧ key.variant = t.productVariant))
      (clippedQuantity db) (stocksInScope db key.countryCode key.channelSlug variantIds)
      = sumIf (fun t => decide (t.warehouse = s.warehouse)) (clippedQuantity db)
        (eligibleStocks db key) := by
    rw [← filter_stocksInScope h, sumIf_filter]
    refine sumIf_congr (fun t _ => ?_) fun _ _ _ => rfl
    rw [Bool.eq_iff_iff]
    simp only [decide_eq_true_eq, Bool.and_eq_true]
    exact ⟨fun ⟨hw, hv⟩ => ⟨hw.symm, hv.symm⟩, fun ⟨hw, hv⟩ => ⟨hw.symm, hv.symm⟩⟩
  rw [mapsFor, availableQuantity_foldl, hsplit, zero_add]
  refine sumIf_eq_single (List.Nodup.of_map _ (nodup_eligible hdb)) hs fun t ht => ?_
  rw [decide_eq_true_iff]
  exact ⟨fun heq => List.inj_on_of_nodup_map (nodup_eligible hdb) ht hs heq, fun heq => by rw [heq]⟩

/-- The zones of the variant, after the loop. -/
theorem zones_mapsFor (hdb : FitsInto db now) (h : key.variant ∈ variantIds) :
    (∀ g : ℕ → ℤ, Grouping.total g ((mapsFor db key variantIds).warehouseIdsByShippingZone key.variant)
      = ((eligibleStocks db key).map fun s =>
          max 1 ((zonesOfStock db key s).length : ℤ) * g s.warehouse).sum) ∧
      ∀ w, w ∈ ((mapsFor db key variantIds).warehouseIdsByShippingZone key.variant).flatMap (·.2) ↔
        w ∈ (eligibleStocks db key).map (·.warehouse) := by
  have hfilter := @filter_stocksInScope db key variantIds h
  obtain ⟨htotal, hvalues⟩ := @zones_foldl db
    (warehouseShippingZonesMap (getWarehouseShippingZones db key.countryCode key.channelSlug))
    (getClickAndCollectWarehouses db key.channelSlug key.countryCode) key.variant
    (stocksInScope db key.countryCode key.channelSlug variantIds)
    (by rw [hfilter]; exact nodup_eligible hdb) {} fun _ _ _ => List.not_mem_nil
  refine ⟨fun g => (htotal g).trans ?_, fun w => (hvalues w).trans ?_⟩
  · rw [sumIf, hfilter]
    simp [Grouping.total, weight, zonesOfStock]
  · rw [← hfilter]
    simp [and_assoc]

/-- Whether the variant is offered from all warehouses, as the loop finds it. -/
theorem mem_variantsWithGlobalCcWarehouses_mapsFor (h : key.variant ∈ variantIds) :
    key.variant ∈ (mapsFor db key variantIds).variantsWithGlobalCcWarehouses ↔
      OfferedEverywhere db key := by
  rw [mapsFor, variantsWithGlobalCcWarehouses_foldl, OfferedEverywhere, ← filter_stocksInScope h]
  simp only [List.not_mem_nil, false_or, List.mem_filter, decide_eq_true_eq, zonesOfStock, and_assoc]

/-- How often a stock is counted: once, but for each of its zones if the country is not known and no
collection point offers the variant from all warehouses. -/
def countedOf (db : Db) (key : AvailabilityKey) (s : Stock) : ℤ :=
  if (truthyText key.countryCode).isSome ∨
      key.variant ∈ (mapsFor db key [key.variant]).variantsWithGlobalCcWarehouses then 1
  else max 1 (zonesOfStock db key s).length

theorem countedOf_pos (db : Db) (key : AvailabilityKey) (s : Stock) : 1 ≤ countedOf db key s := by
  rw [countedOf]
  split_ifs
  · exact le_rfl
  · exact le_max_left _ _

theorem countedOf_le_one_iff {s : Stock} :
    countedOf db key s ≤ 1 ↔ (truthyText key.countryCode).isSome ∨ OfferedEverywhere db key ∨
      (zonesOfStock db key s).length ≤ 1 := by
  rw [countedOf, ← mem_variantsWithGlobalCcWarehouses_mapsFor (List.mem_singleton_self _), ← or_assoc]
  split_ifs with hone
  · exact ⟨fun _ => .inl hone, fun _ => le_rfl⟩
  · rw [or_iff_right hone]
    omega

/-- **What the loader finds**: the quantities of the eligible stocks, each counted so often. -/
theorem batchLoadQuantitiesByCountry_eq (hdb : FitsInto db now) (h : key.variant ∈ variantIds) :
    batchLoadQuantitiesByCountry db key.countryCode key.channelSlug variantIds key.variant
      = ((eligibleStocks db key).map fun s => countedOf db key s * clippedQuantity db s).sum := by
  obtain ⟨htotal, hvalues⟩ := @zones_mapsFor db now key variantIds hdb h
  have hquantity : ∀ s ∈ eligibleStocks db key,
      (mapsFor db key variantIds).availableQuantity s.warehouse key.variant = clippedQuantity db s :=
    fun s hs => availableQuantity_mapsFor hdb h hs
  have hglobal : key.variant ∈ (mapsFor db key variantIds).variantsWithGlobalCcWarehouses ↔
      key.variant ∈ (mapsFor db key [key.variant]).variantsWithGlobalCcWarehouses := by
    rw [mem_variantsWithGlobalCcWarehouses_mapsFor h,
      mem_variantsWithGlobalCcWarehouses_mapsFor (List.mem_singleton_self _)]
  change prepareQuantityMap key.countryCode (mapsFor db key variantIds) key.variant = _
  rw [prepareQuantityMap]
  simp only [countedOf, ← hglobal, Bool.or_eq_true, decide_eq_true_eq]
  split_ifs with hone
  · -- The warehouses that are gathered from the zones are those of the eligible stocks.
    have hperm := (List.perm_ext_iff_of_nodup (List.nodup_dedup _) (nodup_eligible hdb)).mpr
      fun w => List.mem_dedup.trans (hvalues w)
    rw [(hperm.map _).sum_eq, List.map_map]
    refine congrArg List.sum (List.map_congr_left fun s hs => ?_)
    rw [one_mul]
    exact hquantity s hs
  · refine (htotal fun w => (mapsFor db key variantIds).availableQuantity w key.variant).trans ?_
    exact congrArg List.sum (List.map_congr_left fun s hs => by rw [hquantity s hs])

theorem batchLoad_getElem? (hdb : FitsInto db now) {keys : List AvailabilityKey} {i : ℕ}
    (hkey : keys[i]? = some key) :
    (batchLoad db keys)[i]?
      = some (max 0 ((eligibleStocks db key).map fun s =>
          countedOf db key s * clippedQuantity db s).sum) := by
  have hmem : key.variant ∈ (keys.filter fun k => k.countryCode = key.countryCode &&
      k.channelSlug = key.channelSlug).map (·.variant) := by
    refine List.mem_map_of_mem (List.mem_filter.mpr ⟨List.mem_of_getElem? hkey, ?_⟩)
    simp
  rw [batchLoad, List.getElem?_map, hkey, Option.map_some]
  exact congrArg some (congrArg (max 0) (batchLoadQuantitiesByCountry_eq hdb hmem))

end Answer

/-! ### Whether it is what is there -/

section Right

variable {db : Db} {now : Time} {key : AvailabilityKey} {s : Stock}

/-- The reservations of a stock, by whether they have expired. -/
theorem prepareStocksReservationsMap_eq :
    prepareStocksReservationsMap db s.pk = heldUnexpired db now s + heldExpired db now s := by
  rw [prepareStocksReservationsMap, heldUnexpired, heldExpired, ← sumIf_or]
  · refine sumIf_congr (fun r _ => ?_) fun _ _ _ => rfl
    cases decide (now < r.reservedUntil) <;> simp
  · intro r _ hfirst hsecond
    rw [Bool.and_eq_true, decide_eq_true_iff, decide_eq_true_iff] at hfirst
    simp [hfirst.2] at hsecond

theorem heldUnexpired_nonneg : 0 ≤ heldUnexpired db now s :=
  sumIf_nonneg fun _ _ => Int.natCast_nonneg _

theorem heldExpired_nonneg : 0 ≤ heldExpired db now s :=
  sumIf_nonneg fun _ _ => Int.natCast_nonneg _

theorem clippedQuantity_le (hdb : FitsInto db now) (hs : s ∈ db.stocks) :
    clippedQuantity db s ≤ freeItems db now s := by
  have hfits := hdb.fits s hs
  have hexpired := @heldExpired_nonneg db now s
  simp only [clippedQuantity, annotateAvailableQuantity_eq, @prepareStocksReservationsMap_eq db now,
    freeItems]
  split_ifs <;> omega

/-- The quantity of a stock is what it has left, if nothing has expired, or nothing is left anyway and
the quantity is clipped. -/
theorem clippedQuantity_eq_iff (hdb : FitsInto db now) (hs : s ∈ db.stocks) :
    clippedQuantity db s = freeItems db now s ↔
      heldExpired db now s = 0 ∨ (freeItems db now s = 0 ∧ allocatedOf db s < s.quantity) := by
  have hfits := hdb.fits s hs
  have hexpired := @heldExpired_nonneg db now s
  have hunexpired := @heldUnexpired_nonneg db now s
  simp only [clippedQuantity, annotateAvailableQuantity_eq, @prepareStocksReservationsMap_eq db now,
    freeItems]
  split_ifs <;> omega

theorem freeItems_nonneg (hdb : FitsInto db now) (hs : s ∈ db.stocks) : 0 ≤ freeItems db now s := by
  have hfits := hdb.fits s hs
  rw [freeItems]
  omega

theorem prepareStocksReservationsMap_withoutExpired :
    prepareStocksReservationsMap (withoutExpired db now) s.pk = heldUnexpired db now s := by
  refine (sumIf_filter _ _ _ _).trans (sumIf_congr (fun r _ => ?_) fun _ _ _ => rfl)
  rw [Bool.not_not]

/-- Without the expired reservations the quantity of a stock is what it has left. -/
theorem clippedQuantity_withoutExpired (hdb : FitsInto db now) (hs : s ∈ db.stocks) :
    clippedQuantity (withoutExpired db now) s = freeItems db now s := by
  have hfits := hdb.fits s hs
  have hunexpired := @heldUnexpired_nonneg db now s
  have hsame : allocatedOf (withoutExpired db now) s = allocatedOf db s := rfl
  simp only [clippedQuantity, annotateAvailableQuantity_eq, prepareStocksReservationsMap_withoutExpired,
    hsame, freeItems]
  split_ifs <;> omega

/-- The database without its expired reservations has the same stocks and the same allocations. -/
theorem fitsInto_withoutExpired (hdb : FitsInto db now) : FitsInto (withoutExpired db now) now where
  unique := hdb.unique
  fits := fun s hs => by
    have hunexpired : heldUnexpired (withoutExpired db now) now s = heldUnexpired db now s := by
      refine (sumIf_filter _ _ _ _).trans (sumIf_congr (fun r _ => ?_) fun _ _ _ => rfl)
      rw [Bool.not_not, Bool.and_assoc, Bool.and_self]
    rw [hunexpired]
    exact hdb.fits s hs

theorem countedOf_withoutExpired : countedOf (withoutExpired db now) key s = countedOf db key s := by
  rw [countedOf, countedOf]
  refine if_congr (or_congr Iff.rfl ?_) rfl rfl
  rw [mem_variantsWithGlobalCcWarehouses_mapsFor (List.mem_singleton_self _),
    mem_variantsWithGlobalCcWarehouses_mapsFor (List.mem_singleton_self _)]
  exact Iff.rfl

/-- The condition in terms of what is counted, and how often. -/
theorem shownRight_iff (hdb : FitsInto db now) :
    ShownRight db now key ↔
      ((∀ s ∈ eligibleStocks db key, freeItems db now s = 0) ∨
        ∀ s ∈ eligibleStocks db key, clippedQuantity db s = freeItems db now s) ∧
      ∀ s ∈ eligibleStocks db key, 0 < freeItems db now s → countedOf db key s ≤ 1 := by
  have hquantity : (∀ s ∈ eligibleStocks db key, clippedQuantity db s = freeItems db now s) ↔
      ∀ s ∈ eligibleStocks db key, heldExpired db now s = 0 ∨
        (freeItems db now s = 0 ∧ allocatedOf db s < s.quantity) :=
    forall₂_congr fun s hs => clippedQuantity_eq_iff hdb (List.mem_filter.mp hs).1
  have honce : (∀ s ∈ eligibleStocks db key, 0 < freeItems db now s → countedOf db key s ≤ 1) ↔
      (truthyText key.countryCode).isSome ∨ OfferedEverywhere db key ∨
        ∀ s ∈ eligibleStocks db key, 0 < freeItems db now s →
          (zonesOfStock db key s).length ≤ 1 := by
    simp only [countedOf_le_one_iff, ← or_assoc]
    by_cases hplain : (truthyText key.countryCode).isSome ∨ OfferedEverywhere db key
    · simp only [hplain, true_or, implies_true]
    · simp only [hplain, false_or]
  rw [ShownRight, hquantity, honce, or_and_right]
  refine or_congr_left (iff_self_and.mpr fun hnone => honce.mp fun s hs hpos => ?_)
  rw [hnone s hs] at hpos
  exact absurd hpos (lt_irrefl 0)

/-- **The quantity that is displayed is what is there** exactly if every stock is shown for what it has
left, and counted once. -/
theorem displaysFree_iff (hdb : FitsInto db now) {keys : List AvailabilityKey} {i : ℕ}
    (hkey : keys[i]? = some key) :
    (∃ n, (batchLoad db keys)[i]? = some n ∧ DisplaysFree db now keys i key n) ↔
      ShownRight db now key := by
  have hstocks : ∀ s ∈ eligibleStocks db key, s ∈ db.stocks := fun s hs => (List.mem_filter.mp hs).1
  have hleft : ∀ s ∈ eligibleStocks db key, 0 ≤ freeItems db now s := fun s hs =>
    freeItems_nonneg hdb (hstocks s hs)
  have hsum : 0 ≤ ((eligibleStocks db key).map (freeItems db now)).sum :=
    List.sum_nonneg (List.forall_mem_map.mpr hleft)
  have hcounted : ∀ s ∈ eligibleStocks db key, 1 ≤ countedOf db key s := fun s _ =>
    countedOf_pos db key s
  have hfree : (batchLoad (withoutExpired db now) keys)[i]?
      = some ((eligibleStocks db key).map fun s =>
          countedOf db key s * freeItems db now s).sum := by
    rw [batchLoad_getElem? (fitsInto_withoutExpired hdb) hkey, Option.some_inj]
    have hmap : ((eligibleStocks (withoutExpired db now) key).map fun s =>
          countedOf (withoutExpired db now) key s * clippedQuantity (withoutExpired db now) s).sum
        = ((eligibleStocks db key).map fun s => countedOf db key s * freeItems db now s).sum := by
      refine congrArg List.sum (List.map_congr_left fun s hs => ?_)
      rw [clippedQuantity_withoutExpired hdb (hstocks s hs), countedOf_withoutExpired]
    rw [hmap]
    refine max_eq_right (List.sum_nonneg (List.forall_mem_map.mpr fun s hs => ?_))
    exact mul_nonneg (Int.le_trans Int.one_nonneg (hcounted s hs)) (hleft s hs)
  have honce := Grouping.sum_weighted_le_iff hcounted hleft
  have hshown := Grouping.max_sum_weighted_eq_iff hcounted hleft fun s hs =>
    clippedQuantity_le hdb (hstocks s hs)
  rw [shownRight_iff hdb, ← hshown, ← honce]
  constructor
  · rintro ⟨n, hn, hfrom⟩
    have hvalue := (batchLoad_getElem? hdb hkey).symm.trans hn
    have hsame := hfree.symm.trans hfrom.unexpired
    have hle := hfrom.at_most
    rw [Option.some_inj] at hvalue hsame
    rw [max_eq_right hsum] at hle
    exact ⟨hvalue.trans hsame.symm, hsame.le.trans hle⟩
  · rintro ⟨hequal, hle⟩
    refine ⟨_, batchLoad_getElem? hdb hkey, ?_, ?_, ?_⟩
    · rw [hequal, max_eq_right hsum]
      exact hle
    · intro hknown
      rw [hequal, max_eq_right hsum]
      refine congrArg List.sum (List.map_congr_left fun s _ => ?_)
      rw [countedOf, if_pos (.inl hknown), one_mul]
    · rw [hfree, hequal]

/-- Five items in a warehouse that serves two zones. -/
def twoZones : Db :=
  { warehouses := ⟨[{ pk := 1, shippingZones := [1, 2] }], by decide⟩
    shippingZones :=
      ⟨[{ pk := 1, countries := ["PL"], channels := [] },
        { pk := 2, countries := ["DE"], channels := [] }], by decide⟩
    stocks := ⟨[{ pk := 1, warehouse := 1, productVariant := 1, quantity := 5 }], by decide⟩ }

/-- With a country, the five items are displayed. -/
theorem displaysFree_known :
    ∃ n, (batchLoad twoZones [{ variant := 1, countryCode := some "PL" }])[0]? = some n ∧
      DisplaysFree twoZones 0 [{ variant := 1, countryCode := some "PL" }] 0
        { variant := 1, countryCode := some "PL" } n :=
  (displaysFree_iff ⟨by decide, by decide⟩ rfl).mpr (.inr ⟨by decide, .inl rfl⟩)

/-- Without a country ten items are displayed. -/
theorem displaysFree_not_always :
    FitsInto twoZones 0 ∧
      batchLoad twoZones [{ variant := 1 }] = [10] ∧
      ¬ ∃ n, (batchLoad twoZones [{ variant := 1 }])[0]? = some n ∧
        DisplaysFree twoZones 0 [{ variant := 1 }] 0 { variant := 1 } n := by
  refine ⟨⟨by decide, by decide⟩, by decide, ?_⟩
  rintro ⟨n, hn, hfrom⟩
  have hten : (batchLoad twoZones [{ variant := 1 }])[0]? = some 10 := by decide
  have hle := hfrom.at_most
  rw [hten, Option.some_inj] at hn
  have hfive : max 0 ((eligibleStocks twoZones { variant := 1 }).map
      (freeItems twoZones 0)).sum = 5 := by decide
  omega

end Right

end Stocks

end Aixinwu
