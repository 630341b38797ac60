import Aixinwu.Lib.Runs
import Aixinwu.Warehouse.Counter

/-!
# Runs of stock operations

Any sequence of the operations on stocks and allocations, one after another. An operation that
raises leaves the tables alone, except `deallocate_stock`, which has no transaction of its own: what
it has written before it raises `AllocationError` stays, unless its caller takes it back.

The counters of the stocks are right in every state such a run reaches, as long as every operation
that succeeds meets each stock once in its batch.

## Main definitions

* `Operation`, `exec`, `step`
* `MeetsStocksOnce`

## Main results

* `counted_exec` — one operation
* `counted_reached` — every state of a run
-/

namespace Aixinwu

namespace Stocks

/-- The operations of `saleor/warehouse/management.py` that write allocations, with their
arguments. -/
inductive Operation where
  | allocateStocks (c : AllocateStocks)
  | deallocateStock (infos : List OrderLineInfo)
  | increaseAllocations (infos : List OrderLineInfo) (countryCode : Option String)
      (channel : Channel) (now : Time)
  | decreaseAllocations (now : Time) (infos : List OrderLineInfo)
  | decreaseStock (infos : List OrderLineInfo) (updateStocks allowStockToBeExceeded : Bool)
  | increaseStock (line : ℕ) (variant : Option ℕ) (warehouse : ℕ) (quantity : ℤ) (allocate : Bool)
  | deallocateStockForOrder (order : ℕ)
  | deallocateStockForOrders (orders : List ℕ)
  | deactivatePreorderForVariant (variant : ProductVariant)

/-- What an operation makes of the tables. -/
def exec : Operation → Db → Except AllocateError Db
  | .allocateStocks c, db => allocateStocks c db
  | .deallocateStock infos, db => .ok (deallocateStock infos db).1
  | .increaseAllocations infos countryCode channel now, db =>
    increaseAllocations infos countryCode channel now db
  | .decreaseAllocations now infos, db => decreaseAllocations now infos db
  | .decreaseStock infos updateStocks allow, db => decreaseStock infos updateStocks allow db
  | .increaseStock line variant warehouse quantity allocate, db =>
    increaseStock line variant warehouse quantity allocate db
  | .deallocateStockForOrder order, db => .ok (deallocateStockForOrder order db)
  | .deallocateStockForOrders orders, db => .ok (deallocateStockForOrders orders db)
  | .deactivatePreorderForVariant variant, db => deactivatePreorderForVariant variant db

/-- The tables after an operation. -/
def step (db : Db) (op : Operation) : Db :=
  match exec op db with
  | .ok db' => db'
  | .error _ => db

/-- The batch of the operation meets each stock once, or later with nothing. -/
def MeetsStocksOnce (db : Db) : Operation → Prop
  | .allocateStocks c => c.VariantsOnce
  | .deallocateStock infos => DrawnOnce db infos
  | .increaseAllocations infos _ _ now =>
    DeletedOnce db (infos.map (·.line)) ∧
      ((getOrderLinesWithTrackInventory now infos).map fun info => info.variant.map (·.pk)).Nodup
  | .decreaseAllocations now infos =>
    DrawnOnce db (getOrderLinesWithTrackInventory now infos) ∧
      NothingLeft db (getOrderLinesWithTrackInventory now infos)
  | .decreaseStock infos _ _ => DrawnOnce db infos ∧ NothingLeft db infos
  | .increaseStock .. => True
  | .deallocateStockForOrder order => AllocatedOnce (isLineOfOrder db order) db
  | .deallocateStockForOrders orders => AllocatedOnce (isLineOfOrders db orders) db
  | .deactivatePreorderForVariant variant => PreordersOnce db variant

/-- **One operation** that meets each stock once keeps the counters right. -/
theorem counted_exec {db db' : Db} {op : Operation} (h : Counted db) (honce : MeetsStocksOnce db op)
    (hok : exec op db = .ok db') : Counted db' := by
  cases op with
  | allocateStocks c => exact counted_allocateStocks h honce hok
  | deallocateStock infos =>
    obtain rfl := Except.ok.inj hok
    exact counted_deallocateStock h honce
  | increaseAllocations infos countryCode channel now =>
    exact counted_increaseAllocations h honce.1 honce.2 hok
  | decreaseAllocations now infos => exact counted_decreaseAllocations h honce.1 honce.2 hok
  | decreaseStock infos updateStocks allow => exact counted_decreaseStock h honce.1 honce.2 hok
  | increaseStock line variant warehouse quantity allocate => exact counted_increaseStock h hok
  | deallocateStockForOrder order =>
    obtain rfl := Except.ok.inj hok
    exact counted_deallocateAll h honce
  | deallocateStockForOrders orders =>
    obtain rfl := Except.ok.inj hok
    exact counted_deallocateAll h honce
  | deactivatePreorderForVariant variant =>
    exact counted_deactivatePreorderForVariant h honce hok

/-- If the operation succeeds, its batch meets each stock once. -/
def StepMeetsStocksOnce (db : Db) (op : Operation) : Prop :=
  ∀ db', exec op db = .ok db' → MeetsStocksOnce db op

theorem counted_step (db : Db) (op : Operation) (h : Counted db)
    (honce : StepMeetsStocksOnce db op) : Counted (step db op) := by
  rw [step]
  split
  · rename_i db' hok
    exact counted_exec h (honce db' hok) hok
  · exact h

/-- **The counters are right** in every state of a run whose operations meet each stock once. -/
theorem counted_reached {db t : Db} {ops : List Operation} (hdb : Counted db)
    (honce : Runs.EachStep step StepMeetsStocksOnce db ops) (ht : Runs.Reached step db ops t) :
    ∀ s ∈ t.stocks, s.quantityAllocated = allocatedIn t s.pk :=
  (Runs.EachStep.inv_reached counted_step honce hdb ht).counter

/-- Two unconfirmed orders of one item each, allocated in one stock. -/
def twoOrdersDb : Db where
  orders := ⟨[{ pk := 1, status := .unconfirmed }, { pk := 2, status := .unconfirmed }], by decide⟩
  orderLines := ⟨[{ pk := 1, order := 1 }, { pk := 2, order := 2 }], by decide⟩
  stocks := Table.singleton
    { pk := 1, warehouse := 1, productVariant := 1, quantity := 9, quantityAllocated := 5 }
  allocations := ⟨[⟨1, 1, 2⟩, ⟨2, 1, 3⟩], by decide⟩

theorem counted_twoOrdersDb : Counted twoOrdersDb where
  counter := by
    intro s hs
    obtain rfl := List.mem_singleton.mp hs
    decide
  stock_exists := by
    intro a ha
    refine ⟨_, List.mem_singleton_self _, ?_⟩
    rcases List.mem_cons.mp ha with rfl | ha
    · rfl
    · obtain rfl := List.mem_singleton.mp ha
      rfl

/-- Taking the orders back one after the other. -/
theorem counted_reached_twoOrdersDb :
    Counted twoOrdersDb ∧ ∀ s ∈ (Runs.run step twoOrdersDb
        [.deallocateStockForOrder 1, .deallocateStockForOrder 2]).stocks,
      s.quantityAllocated = allocatedIn (Runs.run step twoOrdersDb
        [.deallocateStockForOrder 1, .deallocateStockForOrder 2]) s.pk := by
  have honce : Runs.EachStep step StepMeetsStocksOnce twoOrdersDb
      [.deallocateStockForOrder 1, .deallocateStockForOrder 2] := by
    refine (Runs.eachStep_cons ..).mpr ⟨fun _ _ => ?_, (Runs.eachStep_cons ..).mpr
      ⟨fun _ _ => ?_, trivial⟩⟩
    · show AllocatedOnce (isLineOfOrder twoOrdersDb 1) twoOrdersDb
      decide
    · show AllocatedOnce (isLineOfOrder (deallocateStockForOrder 1 twoOrdersDb) 2)
        (deallocateStockForOrder 1 twoOrdersDb)
      decide
  exact ⟨counted_twoOrdersDb, counted_reached counted_twoOrdersDb honce (Runs.reached_run _ _)⟩

/-- Taken back together, the counter goes down by the allocation of the first order only. -/
theorem not_counted_reached :
    ¬ ∀ (db t : Db) (ops : List Operation), Counted db → Runs.Reached step db ops t →
      ∀ s ∈ t.stocks, s.quantityAllocated = allocatedIn t s.pk := by
  intro h
  have hcounter := h twoOrdersDb _ [.deallocateStockForOrders [1, 2]] counted_twoOrdersDb
    (Runs.reached_run _ _)
    { pk := 1, warehouse := 1, productVariant := 1, quantity := 9, quantityAllocated := 3 }
    (List.mem_singleton_self _)
  revert hcounter
  decide

end Stocks

end Aixinwu
