import Aixinwu.Warehouse.Allocate
import Aixinwu.Warehouse.Preorders

/-!
# Reserving stocks

`reserve_stocks_and_preorders` of `saleor/warehouse/reservations.py`: lines of a checkout hold items
until a time. What is available to a line is the quantity of a stock less what is allocated and what
other lines hold, and the loop over the stocks is that of allocating. The rows of the lines are
replaced by the new ones, and then the time of the lines that did not change is set anew, whatever
they hold and whether or not they still held it.

Preorders are reserved against their thresholds; that part writes nothing but preorder reservations,
and only if the last line has one.

## Main definitions

* `CheckoutLine`, `ReserveCall`
* `reserveStocks`, `reservePreorders`, `reserveStocksAndPreorders`

## Main results

* `reserveStocks_eq_ok` — what reserving stocks writes
* `reserveStocksAndPreorders_eq_ok`
-/

namespace Aixinwu

namespace Stocks

/-- `checkout.models.CheckoutLine`, with its variant as fetched. -/
structure CheckoutLine where
  pk : ℕ
  variant : ProductVariant
  quantity : ℕ
deriving DecidableEq, Repr

/-- The arguments of `reserve_stocks_and_preorders`, and the time of the call. Two instances of one
line are one instance, and the length is one the settings of the shop store. -/
structure ReserveCall where
  checkoutLines : List CheckoutLine
  linesToUpdateReservationTime : List ℕ := []
  variants : List ProductVariant
  countryCode : String
  channel : Channel
  lengthInMinutes : ℤ
  replace : Bool := true
  now : Time
  same : ∀ l ∈ checkoutLines, ∀ l' ∈ checkoutLines, l.pk = l'.pk → l = l'
  quantities : ∀ l ∈ checkoutLines, 0 < l.quantity
  positive : 0 < lengthInMinutes

/-- `timedelta(minutes=n)`, in seconds. -/
def minutes (n : ℤ) : Time := 60 * n

namespace ReserveCall

variable (c : ReserveCall) (db : Db)

/-- The variants and the lines that are not preorders. -/
def stockVariants : List ProductVariant := c.variants.filter fun v => !v.isPreorderActive c.now

def stockLines : List CheckoutLine :=
  c.checkoutLines.filter fun line => !line.variant.isPreorderActive c.now

/-- The variants and the lines that are. -/
def preorderVariants : List ProductVariant := c.variants.filter (·.isPreorderActive c.now)

def preorderLines : List CheckoutLine :=
  c.checkoutLines.filter (·.variant.isPreorderActive c.now)

def reservedUntil : Time := c.now + minutes c.lengthInMinutes

/-! ### Stocks -/

/-- The variants of some lines, among those that are given. -/
def variantsOf (variants : List ProductVariant) (lines : List CheckoutLine) : List ProductVariant :=
  variants.filter fun v => v.pk ∈ lines.map (·.variant.pk)

/-- `variants_map[variant_id]`. -/
def variantsMap (variants : List ProductVariant) (variant : ℕ) : Option ProductVariant :=
  variants.reverse.find? (·.pk = variant)

/-- `get_checkout_lines_to_reserve`. -/
def getCheckoutLinesToReserve (variantsMap : ℕ → Option ProductVariant) :
    List CheckoutLine → Except AllocateError (List CheckoutLine)
  | [] => .ok []
  | line :: lines =>
    if line.quantity = 0 then getCheckoutLinesToReserve variantsMap lines
    else
      match variantsMap line.variant.pk, getCheckoutLinesToReserve variantsMap lines with
      | none, _ => .error .keyError
      | some _, .error e => .error e
      | some variant, .ok rest => .ok (if variant.trackInventory then line :: rest else rest)

/-- The lines that are reserved. -/
def lines : Except AllocateError (List CheckoutLine) :=
  getCheckoutLinesToReserve (variantsMap (variantsOf c.stockVariants c.stockLines)) c.stockLines

/-- The stocks that are locked, in the order of their keys. -/
def stocks : List Stock :=
  orderBy (·.pk) (db.stocks.rows.filter fun s =>
    forChannelAndCountry db c.channel.slug c.countryCode false s
      && decide (s.productVariant ∈ (variantsOf c.stockVariants c.stockLines).map (·.pk)))

/-- `quantity_allocation_for_stocks`. -/
def allocated : ℕ → ℤ := quantityAllocationForStocks db ((c.stocks db).map (·.pk))

/-- `quantity_reservation_for_stocks`: what other lines hold. -/
def reserved (lines : List CheckoutLine) (stock : ℕ) : ℤ :=
  sumIf (fun r => decide (r.stock = stock)) (fun r : Reservation => (r.quantityReserved : ℤ))
    (db.reservations.rows.filter fun r =>
      decide (r.stock ∈ (c.stocks db).map (·.pk)) && decide (0 < r.quantityReserved)
        && decide (c.now < r.reservedUntil) && notOfCheckoutLines (lines.map (·.pk)) r)

/-- The stocks in the order in which they are reserved. -/
def sorted : Except AllocateError (List Stock) :=
  sortStocks db c.channel.allocationStrategy (c.stocks db) c.channel (c.allocated db) none

/-- What is available in a stock. -/
def available (lines : List CheckoutLine) (s : Stock) : ℤ :=
  max (s.quantity - c.allocated db s.pk - c.reserved db lines s.pk) 0

/-- `_create_stock_reservations`. -/
def create (lines : List CheckoutLine) (sorted : List Stock) (line : CheckoutLine) :
    Filled Reservation :=
  fillFromStocks
    (fun s quantity => ⟨some line.pk, s.pk, quantity, c.reservedUntil⟩) line.quantity
    (c.available db lines) 0 [] (sorted.filter (·.productVariant = line.variant.pk))

/-- The loop over the lines. Where `_create_stock_reservations` falls through it returns two empty
lists, and what was insufficient is forgotten. -/
def createForLines (create : CheckoutLine → Filled Reservation)
    (variantsMap : ℕ → Option ProductVariant) :
    List InsufficientStockData → List Reservation → List CheckoutLine →
      List InsufficientStockData × List Reservation
  | insufficient, reservations, [] => (insufficient, reservations)
  | insufficient, reservations, line :: lines =>
    match create line with
    | .filled items =>
      createForLines create variantsMap insufficient (reservations ++ items) lines
    | .insufficient =>
      createForLines create variantsMap
        (insufficient ++ [{ availableQuantity := line.quantity
                            variant := variantsMap line.variant.pk }]) reservations lines
    | .fellThrough => createForLines create variantsMap [] reservations lines

/-- `reserve_stocks`. -/
def reserveStocks : Except AllocateError Db :=
  match c.lines with
  | .error e => .error e
  | .ok [] => .ok db
  | .ok (line :: rest) =>
    let lines := line :: rest
    match c.sorted db with
    | .error e => .error e
    | .ok sorted =>
      match createForLines (c.create db lines sorted)
          (variantsMap (variantsOf c.stockVariants c.stockLines)) [] [] lines with
      | (item :: items, _) => .error (.insufficientStock (item :: items))
      | ([], []) => .ok db
      | ([], reservation :: reservations) =>
        let kept := if c.replace then
            db.reservations.delete fun r => !notOfCheckoutLines (lines.map (·.pk)) r
          else db.reservations
        match kept.bulkCreate (reservation :: reservations) with
        | none => .error .integrityError
        | some t => .ok { db with reservations := t }

/-- The lines whose reservation time is set anew. -/
def updates (r : Reservation) : Bool := r.checkoutLine.any (· ∈ c.linesToUpdateReservationTime)

/-! ### Preorders -/

/-- A threshold as a truth value. -/
def isSet (threshold : Option ℤ) : Bool := threshold.any (· ≠ 0)

/-- `get_listings_reservations`. -/
def listingsReserved (listings : List ℕ) (listing : ℕ) : ℤ :=
  sumIf (fun r => decide (r.productVariantChannelListing = listing))
    (fun r : PreorderReservation => (r.quantityReserved : ℤ))
    (db.preorderReservations.rows.filter fun r =>
      decide (r.productVariantChannelListing ∈ listings) && decide (0 < r.quantityReserved)
        && decide (c.now < r.reservedUntil)
        && excludeCheckoutLines (some (c.preorderLines.map (·.pk))) r.checkoutLine)

/-- `_create_preorder_reservation`: what is insufficient, and the reservation. -/
def createPreorderReservation (line : CheckoutLine) (variant : ProductVariant)
    (listing : ProductVariantChannelListing) (allListings : List ℕ) (globalAllocations : ℤ)
    (listingsReserved : ℕ → ℤ) : List InsufficientStockData × Option PreorderReservation :=
  let quantity : ℤ := line.quantity
  let channelQuantity := listing.preorderQuantityThreshold.map fun threshold =>
    availability threshold (preorderAllocated db listing.pk) (listingsReserved listing.pk)
  let globalQuantity := (variant.preorderGlobalThreshold.filter (· ≠ 0)).map fun threshold =>
    availability threshold globalAllocations (allListings.map listingsReserved).sum
  let insufficient := [channelQuantity, globalQuantity].filterMap fun quantity? =>
    (quantity?.filter (· < quantity)).map fun available =>
      ({ availableQuantity := available, variant := some variant } : InsufficientStockData)
  if isSet listing.preorderQuantityThreshold || isSet variant.preorderGlobalThreshold then
    (insufficient, some ⟨line.pk, listing.pk, line.quantity, c.reservedUntil⟩)
  else (insufficient, none)

/-- `reserve_preorders`. The reservations are saved if the last line has one. -/
def reservePreorders : Except AllocateError Db :=
  let variants := variantsOf c.preorderVariants c.preorderLines
  let listings := (variantsListings db (variants.map (·.pk))).map (·.pk)
  let channelListing (line : CheckoutLine) :=
    (variantToChannelListing db c.channel.slug line.variant.pk).filter (·.pk ∈ listings)
  if c.preorderLines.any fun line => (channelListing line).isNone then .error .keyError
  else
    let lines := c.preorderLines.filter fun line =>
      isSet line.variant.preorderGlobalThreshold
        || (channelListing line).any (·.preorderQuantityThreshold.isSome)
    let created := lines.filterMap fun line =>
      match channelListing line, variantsMap variants line.variant.pk with
      | some listing, some variant =>
        some (c.createPreorderReservation db line variant listing
          ((variantsListings db [variant.pk]).map (·.pk)) (globalAllocated db variant.pk)
          (c.listingsReserved db listings))
      | _, _ => none
    match created.flatMap (·.1), created.getLast?.bind (·.2) with
    | item :: items, _ => .error (.insufficientStock (item :: items))
    | [], none => .ok db
    | [], some _ =>
      let kept : Table PreorderReservation := if c.replace then
          ⟨db.preorderReservations.rows.filter fun r => r.checkoutLine ∉ lines.map (·.pk),
            (List.filter_sublist.map HasPk.pk).nodup db.preorderReservations.nodup⟩
        else db.preorderReservations
      match kept.insertAll (created.filterMap (·.2)) with
      | none => .error .integrityError
      | some t => .ok { db with preorderReservations := t }

end ReserveCall

/-- The part of the call for the lines that are not preorders. -/
def ReserveCall.serveStocks (c : ReserveCall) (db : Db) : Except AllocateError Db :=
  if c.stockLines = [] then .ok db
  else
    match c.reserveStocks db with
    | .error e => .error e
    | .ok db =>
      .ok { db with reservations := db.reservations.refresh c.updates c.reservedUntil }

/-- The part for the lines that are. -/
def ReserveCall.servePreorders (c : ReserveCall) (db : Db) : Except AllocateError Db :=
  if c.preorderLines = [] then .ok db
  else
    match c.reservePreorders db with
    | .error e => .error e
    | .ok db =>
      .ok { db with
        preorderReservations := db.preorderReservations.map
          (fun r =>
            if r.checkoutLine ∈ c.linesToUpdateReservationTime then
              { r with reservedUntil := c.reservedUntil }
            else r)
          fun r => by split <;> rfl }

/-- `reserve_stocks_and_preorders`. -/
def reserveStocksAndPreorders (c : ReserveCall) (db : Db) : Except AllocateError Db :=
  match c.serveStocks db with
  | .error e => .error e
  | .ok db => c.servePreorders db

/-! ### What reserving stocks does -/

namespace ReserveCall

variable {c : ReserveCall} {db db' : Db} {lines : List CheckoutLine} {sorted : List Stock}

/-- A line of the call whose inventory is tracked. -/
def Tracked (c : ReserveCall) (line : CheckoutLine) : Prop :=
  line ∈ c.stockLines ∧
    (variantsMap (variantsOf c.stockVariants c.stockLines) line.variant.pk).any (·.trackInventory)

theorem getCheckoutLinesToReserve_eq_ok {variantsMap : ℕ → Option ProductVariant}
    {lines reserved : List CheckoutLine} (hpos : ∀ l ∈ lines, 0 < l.quantity)
    (h : getCheckoutLinesToReserve variantsMap lines = .ok reserved) :
    reserved = lines.filter fun line => (variantsMap line.variant.pk).any (·.trackInventory) := by
  induction lines generalizing reserved with
  | nil => exact (Except.ok.inj h).symm
  | cons line lines ih =>
    rw [getCheckoutLinesToReserve, if_neg (hpos line List.mem_cons_self).ne'] at h
    split at h
    · cases h
    · cases h
    · rename_i variant rest hvariant hrest
      obtain rfl := Except.ok.inj h
      have hrest' := ih (fun l hl => hpos l (List.mem_cons_of_mem line hl)) hrest
      by_cases htrack : variant.trackInventory
      · rw [if_pos htrack, List.filter_cons_of_pos (by simp [hvariant, htrack]), hrest']
      · rw [if_neg htrack, List.filter_cons_of_neg (by simp [hvariant, htrack]), hrest']

theorem mem_lines (h : c.lines = .ok lines) {line : CheckoutLine} :
    line ∈ lines ↔ c.Tracked line := by
  rw [getCheckoutLinesToReserve_eq_ok (fun l hl => c.quantities l (List.mem_of_mem_filter hl)) h,
    List.mem_filter]
  rfl

theorem quantity_pos (h : c.Tracked line) : 0 < line.quantity :=
  c.quantities line (List.mem_of_mem_filter h.1)

/-- A line with a quantity is filled or it is not. -/
theorem create_ne_fellThrough {line : CheckoutLine} (h : 0 < line.quantity) :
    c.create db lines sorted line ≠ .fellThrough := by
  have hpos : (0 : ℤ) < line.quantity := Int.natCast_pos.mpr h
  rw [create, fillFromStocks_eq hpos]
  split <;> exact nofun

theorem createForLines_eq {create : CheckoutLine → Filled Reservation}
    {variantsMap : ℕ → Option ProductVariant} {insufficient : List InsufficientStockData}
    {reservations created : List Reservation} {lines : List CheckoutLine}
    (hcreate : ∀ line ∈ lines, create line ≠ .fellThrough)
    (h : createForLines create variantsMap insufficient reservations lines = ([], created)) :
    insufficient = [] ∧ created = reservations ++ lines.flatMap (fun line => (create line).items) ∧
    ∀ line ∈ lines, create line = .filled (create line).items := by
  induction lines generalizing insufficient reservations with
  | nil =>
    obtain ⟨rfl, rfl⟩ := Prod.mk.inj h
    exact ⟨rfl, (List.append_nil _).symm, nofun⟩
  | cons line lines ih =>
    have hrest : ∀ l ∈ lines, create l ≠ .fellThrough := fun l hl =>
      hcreate l (List.mem_cons_of_mem line hl)
    rw [createForLines] at h
    split at h
    · rename_i items hitems
      obtain ⟨hnil, hcreated, hall⟩ := ih hrest h
      refine ⟨hnil, ?_, List.forall_mem_cons.mpr ⟨?_, hall⟩⟩
      · rw [hcreated, List.flatMap_cons, hitems, List.append_assoc]
        rfl
      · rw [hitems]
        rfl
    · obtain ⟨hnil, -⟩ := ih hrest h
      exact absurd hnil (List.append_ne_nil_of_right_ne_nil _ (List.cons_ne_nil _ _))
    · rename_i hfell
      exact absurd hfell (hcreate line List.mem_cons_self)

/-- The rows of the lines that are reserved make way for the new ones. -/
def kept (c : ReserveCall) (db : Db) (lines : List CheckoutLine) : Reservations :=
  if c.replace then db.reservations.delete fun r => !notOfCheckoutLines (lines.map (·.pk)) r
  else db.reservations

/-- **What reserving stocks writes.** -/
theorem reserveStocks_eq_ok (h : c.reserveStocks db = .ok db') :
    ∃ lines, c.lines = .ok lines ∧
      ((lines = [] ∧ db' = db) ∨
      ∃ sorted t, c.sorted db = .ok sorted ∧
        (∀ line ∈ lines, c.create db lines sorted line
          = .filled (c.create db lines sorted line).items) ∧
        t.rows = (c.kept db lines).rows
          ++ lines.flatMap (fun line => (c.create db lines sorted line).items) ∧
        db' = { db with reservations := t }) := by
  rw [reserveStocks] at h
  split at h
  · cases h
  · rename_i hlines
    exact ⟨[], hlines, Or.inl ⟨rfl, (Except.ok.inj h).symm⟩⟩
  rename_i line rest hlines
  refine ⟨line :: rest, hlines, Or.inr ?_⟩
  have hfell : ∀ sorted, ∀ l ∈ line :: rest,
      c.create db (line :: rest) sorted l ≠ .fellThrough := fun sorted l hl =>
    create_ne_fellThrough (quantity_pos ((mem_lines hlines).mp hl))
  dsimp only at h
  split at h
  · cases h
  rename_i sorted hsorted
  split at h
  · cases h
  · rename_i hcreate
    obtain ⟨-, hnil, hall⟩ := createForLines_eq (hfell sorted) hcreate
    -- the first line has something, so this does not happen
    have hfirst := hall line List.mem_cons_self
    have hitems : (c.create db (line :: rest) sorted line).items = [] := by
      rw [List.nil_append, List.flatMap_cons] at hnil
      exact (List.append_eq_nil_iff.mp hnil.symm).1
    have hsum : ((c.create db (line :: rest) sorted line).items.map
        fun r => (r.quantityReserved : ℤ)).sum = line.quantity := by
      refine sum_filled ?_ hfirst
      exact fun _ _ => rfl
    rw [hitems] at hsum
    have hpos := quantity_pos ((mem_lines hlines).mp List.mem_cons_self)
    exact absurd (Int.natCast_eq_zero.mp hsum.symm) hpos.ne'
  · rename_i reservation reservations hcreate
    obtain ⟨-, hcreated, hall⟩ := createForLines_eq (hfell sorted) hcreate
    split at h
    · cases h
    rename_i t ht
    refine ⟨sorted, t, hsorted, hall, ?_, (Except.ok.inj h).symm⟩
    rw [Reservations.bulkCreate_eq_some ht, hcreated]
    rfl

end ReserveCall

theorem servePreorders_eq_ok {c : ReserveCall} {db db' : Db} (h : c.servePreorders db = .ok db') :
    ∃ p, db' = { db with preorderReservations := p } := by
  rw [ReserveCall.servePreorders] at h
  split at h
  · exact ⟨db.preorderReservations, (Except.ok.inj h).symm⟩
  split at h
  · cases h
  rename_i db₁ hdb₁
  have hframe : ∃ p, db₁ = { db with preorderReservations := p } := by
    rw [ReserveCall.reservePreorders] at hdb₁
    dsimp only at hdb₁
    split at hdb₁
    · cases hdb₁
    split at hdb₁
    · cases hdb₁
    · exact ⟨db.preorderReservations, (Except.ok.inj hdb₁).symm⟩
    · split at hdb₁
      · cases hdb₁
      · rename_i t _
        exact ⟨t, (Except.ok.inj hdb₁).symm⟩
  obtain ⟨p, rfl⟩ := hframe
  exact ⟨_, (Except.ok.inj h).symm⟩

/-- **What the call writes**: the stocks and allocations are as they were. -/
theorem reserveStocksAndPreorders_eq_ok {c : ReserveCall} {db db' : Db}
    (h : reserveStocksAndPreorders c db = .ok db') :
    ∃ t p, db' = { db with reservations := t, preorderReservations := p } ∧
      ((c.stockLines = [] ∧ t = db.reservations) ∨
      (c.stockLines ≠ [] ∧ ∃ db₁, c.reserveStocks db = .ok db₁ ∧
        t = db₁.reservations.refresh c.updates c.reservedUntil)) := by
  rw [reserveStocksAndPreorders] at h
  split at h
  · cases h
  rename_i db₁ hstocks
  obtain ⟨p, rfl⟩ := servePreorders_eq_ok h
  rw [ReserveCall.serveStocks] at hstocks
  split at hstocks
  · rename_i hnil
    obtain rfl := Except.ok.inj hstocks
    exact ⟨db.reservations, p, rfl, Or.inl ⟨hnil, rfl⟩⟩
  rename_i hlines
  split at hstocks
  · cases hstocks
  rename_i db₂ hdb₂
  obtain rfl := Except.ok.inj hstocks
  have hframe : ∃ t, db₂ = { db with reservations := t } := by
    obtain ⟨lines, -, ⟨-, rfl⟩ | ⟨sorted, t, -, -, -, rfl⟩⟩ := ReserveCall.reserveStocks_eq_ok hdb₂
    · exact ⟨_, rfl⟩
    · exact ⟨t, rfl⟩
  obtain ⟨t, rfl⟩ := hframe
  exact ⟨t.refresh c.updates c.reservedUntil, p, rfl, Or.inr ⟨hlines, _, hdb₂, rfl⟩⟩

end Stocks

end Aixinwu
