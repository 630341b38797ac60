import Aixinwu.Lib.Closures
import Aixinwu.Warehouse.Availability
import Aixinwu.Warehouse.DecreaseStock

/-!
# Notifications about stocks

`allocate_stocks`, `decrease_stock`, `deallocate_stock` and `deallocate_stock_for_orders` of
`saleor/warehouse/management.py` go through rows of a query when they have written, test what is
available of each row's stock, and have the plugins told on commit that the stock ran out or is
back. What they leave with `transaction.on_commit` is a closure over the variable of the loop, so
every callback of a loop tells of the stock of the last row.

Callbacks are taken to run when the function has returned. `decrease_stock` deallocates first, and
what that leaves stays also where the deallocation raised `AllocationError`, which is caught.

## Main definitions

* `Notifying`, `Notifying.notified`, `Notifying.passed`
* `StockCall`, `StockCall.run` — the four operations with their loops

## Main results

* `notifiesRight_iff` — when the right stocks are told of
-/

namespace Aixinwu

namespace Stocks

/-! ### The loops -/

/-- A loop that tells of stocks: its rows, the test, and the stock of a row. -/
structure Notifying where
  {ρ : Type}
  rows : List ρ
  test : ρ → Bool
  stock : ρ → ℕ

/-- No loop. -/
def Notifying.none : Notifying := ⟨([] : List ℕ), fun _ => false, id⟩

/-- The stocks told of on commit. -/
def Notifying.notified (n : Notifying) : List ℕ :=
  (Closures.loop n.test n.stock {} n.rows).commit

/-- The stocks of the tests that succeeded. -/
def Notifying.passed (n : Notifying) : List ℕ := Closures.called n.test n.stock n.rows

/-- Every test that succeeded was about the stock of the last row. -/
def Notifying.OnlyLast (n : Notifying) : Prop :=
  ∀ row ∈ n.rows, n.test row = true → ∀ last, n.rows.getLast? = some last →
    n.stock row = n.stock last

/-- The loops of an operation. -/
structure Notifications where
  outOfStock : Notifying := .none
  backInStock : Notifying := .none

/-- What is not allocated of a stock: `annotate_stock_available_quantity`, of its allocations. -/
def stockAvailableQuantity (db : Db) (stock : ℕ) : ℤ :=
  quantityOfStock db stock - sumIf (fun a => decide (a.stock = stock))
    (fun a : Allocation => (a.quantityAllocated : ℤ)) db.allocations.rows

/-- The allocations that `allocate_stocks` creates. -/
def createdAllocations (c : AllocateStocks) (db : Db) : List Allocation :=
  match c.sorted db with
  | .error _ => []
  | .ok sorted =>
    match createAllocationsForLines (c.create db sorted) c.infos with
    | .ok (allocations, []) => allocations
    | _ => []

/-- The loop of `allocate_stocks`, over the allocations it has created. -/
def allocateNotifying (c : AllocateStocks) (db db' : Db) : Notifying where
  rows := createdAllocations c db
  test a := max (stockAvailableQuantity db' a.stock) 0 = 0
  stock a := a.stock

/-- The loop of `deallocate_stock`, over the allocations it takes from as they were before: nothing
was available then, and something is now. -/
def deallocateNotifying (infos : List OrderLineInfo) (db : Db) : Notifying where
  rows := db.allocations.rows.filter fun a =>
    HasPk.pk a ∈ (deallocateLines (lineToAllocations db) (quantityOf db) infos).1.map (·.1)
  test a := stockAvailableQuantity db a.stock ≤ 0
    && 0 < max (stockAvailableQuantity (deallocateStock infos db).1 a.stock) 0
  stock a := a.stock

/-- What `decrease_stock` has written before it takes items out of stocks. -/
def deallocated (infos : List OrderLineInfo) (db : Db) : Db :=
  zeroAllocations (deallocateStock infos db).2 (deallocateStock infos db).1

/-- The loop of `decrease_stock`, over its stocks by their keys, as they are now. -/
def decreaseNotifying (infos : List OrderLineInfo) (db db' : Db) : Notifying where
  rows := stocksOfLines (deallocated infos db) infos
  test s := (db'.stocks.find? s.pk).any fun s' => annotateAvailableQuantity db' s' ≤ 0
  stock s := s.pk

/-- The loop of `deallocate_stock_for_orders`, over the allocations it takes back as they were
before. -/
def deallocateForOrdersNotifying (orders : List ℕ) (db : Db) : Notifying where
  rows := db.allocations.rows.filter fun a =>
    isLineOfOrders db orders a.orderLine && decide (0 < a.quantityAllocated)
  test a := stockAvailableQuantity db a.stock ≤ 0
  stock a := a.stock

/-! ### The operations -/

/-- A call of one of the operations. -/
inductive StockCall where
  | allocateStocks (c : AllocateStocks)
  | decreaseStock (infos : List OrderLineInfo) (updateStocks allowStockToBeExceeded : Bool)
  | deallocateStock (infos : List OrderLineInfo)
  | deallocateStockForOrders (orders : List ℕ)

/-- A call that succeeds: what it writes, and its loops. -/
def StockCall.run : StockCall → Db → Option (Db × Notifications)
  | .allocateStocks c, db =>
    match Stocks.allocateStocks c db with
    | .error _ => none
    | .ok db' => some (db', { outOfStock := allocateNotifying c db db' })
  | .decreaseStock infos updateStocks allowStockToBeExceeded, db =>
    match Stocks.decreaseStock infos updateStocks allowStockToBeExceeded db with
    | .error _ => none
    | .ok db' => some (db', {
        backInStock := deallocateNotifying infos db
        outOfStock := if updateStocks then decreaseNotifying infos db db' else .none })
  | .deallocateStock infos, db =>
    match Stocks.deallocateStock infos db with
    | (db', []) => some (db', { backInStock := deallocateNotifying infos db })
    | (_, _ :: _) => none
  | .deallocateStockForOrders orders, db =>
    some (Stocks.deallocateStockForOrders orders db,
      { backInStock := deallocateForOrdersNotifying orders db })

/-! ### What the tests find -/

section Tests

variable {db db' : Db}

/-- The counters say nothing about the quantities. -/
theorem map_quantity_addToQuantityAllocated (stocks : Table Stock) (increments : List (ℕ × ℤ))
    (stock : ℕ) :
    ((addToQuantityAllocated stocks increments).find? stock).map (·.quantity)
      = (stocks.find? stock).map (·.quantity) := by
  rw [addToQuantityAllocated, Table.find?_map, Option.map_map]
  rfl

/-- **What is available after `allocate_stocks`**: what was, less what is created. -/
theorem stockAvailableQuantity_allocateStocks {c : AllocateStocks}
    (h : allocateStocks c db = .ok db') (stock : ℕ) :
    stockAvailableQuantity db' stock = stockAvailableQuantity db stock
      - sumIf (fun a => decide (a.stock = stock))
        (fun a : Allocation => (a.quantityAllocated : ℤ)) (createdAllocations c db) := by
  rcases allocateStocks_eq_ok h with ⟨hnil, rfl⟩ | ⟨sorted, t, hsorted, hall, ht, rfl⟩
  · have hcreated : createdAllocations c db' = [] := by
      rw [createdAllocations, hnil]
      split <;> rfl
    rw [hcreated, sumIf_nil, sub_zero]
  · have hcreated : createdAllocations c db
        = c.infos.flatMap fun info => (c.create db sorted info).items := by
      have hne := h
      rw [allocateStocks] at hne
      rw [createdAllocations, hsorted]
      dsimp only
      by_cases hnil : c.infos = []
      · rw [hnil]
        rfl
      · rw [if_neg hnil, hsorted] at hne
        dsimp only at hne
        split at hne
        · cases hne
        · cases hne
        · rename_i allocations hcreate
          rw [hcreate]
          exact (createAllocationsForLines_eq_ok hcreate).1
    rw [hcreated, stockAvailableQuantity, stockAvailableQuantity, quantityOfStock,
      map_quantity_addToQuantityAllocated, ht, sumIf_append, ← sub_sub]
    rfl

/-- The test of `allocate_stocks`, before it is called: what is created is all that is available. -/
def allocateForeseen (c : AllocateStocks) (db : Db) : Notifying where
  rows := createdAllocations c db
  test a := stockAvailableQuantity db a.stock
    ≤ sumIf (fun b => decide (b.stock = a.stock)) (fun b : Allocation => (b.quantityAllocated : ℤ))
      (createdAllocations c db)
  stock a := a.stock

/-- The test of `decrease_stock`, before the stocks are lowered: the lines mapped to a stock leave
no more than is allocated. -/
def decreaseForeseen (infos : List OrderLineInfo) (db : Db) : Notifying where
  rows := stocksOfLines (deallocated infos db) infos
  test s := s.quantity - ((infos.filter fun info =>
      stockPk (stocksOfLines (deallocated infos db) infos) info = some s.pk).map (·.quantity)).sum
    ≤ allocatedOf (deallocated infos db) s
  stock s := s.pk

/-- Loops over the same rows whose tests agree. -/
theorem onlyLast_congr {ρ : Type} {rows : List ρ} {test test' : ρ → Bool} {stock : ρ → ℕ}
    (h : ∀ row ∈ rows, test row = test' row) :
    (⟨rows, test, stock⟩ : Notifying).OnlyLast ↔ (⟨rows, test', stock⟩ : Notifying).OnlyLast := by
  rw [Notifying.OnlyLast, Notifying.OnlyLast]
  refine forall₂_congr fun row hrow => ?_
  show (test row = true → _) ↔ (test' row = true → _)
  rw [h row hrow]

theorem allocateNotifying_onlyLast_iff {c : AllocateStocks} (h : allocateStocks c db = .ok db') :
    (allocateNotifying c db db').OnlyLast ↔ (allocateForeseen c db).OnlyLast := by
  refine onlyLast_congr fun a _ => ?_
  rw [stockAvailableQuantity_allocateStocks h, decide_eq_decide]
  omega

theorem decreaseNotifying_onlyLast_iff {infos : List OrderLineInfo} {allow : Bool}
    (h : decreaseStock infos true allow db = .ok db') :
    (decreaseNotifying infos db db').OnlyLast ↔ (decreaseForeseen infos db).OnlyLast := by
  have hdb : db' = lowered (stocksOfLines (deallocated infos db) infos) infos
      (deallocated infos db) := by
    rw [decreaseStock] at h
    exact eq_lowered h
  refine onlyLast_congr fun s hs => ?_
  have hmem : s ∈ (deallocated infos db).stocks := by
    rw [stocksOfLines, mem_orderBy] at hs
    exact List.mem_of_mem_filter hs
  have hallocated : ∀ t : Stock, allocatedOf db' t = allocatedOf (deallocated infos db) t := by
    rw [hdb]
    exact fun _ => rfl
  have hfind := find?_lowered (stocksOfLines (deallocated infos db) infos) infos hmem
  rw [← hdb] at hfind
  rw [hfind, Option.any_some, annotateAvailableQuantity_eq, hallocated, decide_eq_decide]
  exact sub_nonpos

end Tests

/-! ### Who is told of -/

/-- If the call succeeds, the stocks that are told of on commit are those of the tests that
succeeded, each once for each test. -/
def StockCall.NotifiesRight (call : StockCall) (db : Db) : Prop :=
  ∀ db' notifications, call.run db = some (db', notifications) →
    notifications.outOfStock.notified.Perm notifications.outOfStock.passed ∧
      notifications.backInStock.notified.Perm notifications.backInStock.passed

/-- The loops as they can be told before the call. -/
def StockCall.foreseen : StockCall → Db → Notifications
  | .allocateStocks c, db => { outOfStock := allocateForeseen c db }
  | .decreaseStock infos updateStocks _, db => {
      backInStock := deallocateNotifying infos db
      outOfStock := if updateStocks then decreaseForeseen infos db else .none }
  | .deallocateStock infos, db => { backInStock := deallocateNotifying infos db }
  | .deallocateStockForOrders orders, db => {
      backInStock := deallocateForOrdersNotifying orders db }

theorem Notifying.notified_perm_iff (n : Notifying) :
    n.notified.Perm n.passed ↔ n.OnlyLast :=
  Closures.commit_loop_perm_iff n.rows

/-- The loops of a call that succeeds go as they can be told before. -/
theorem onlyLast_iff_foreseen {call : StockCall} {db db' : Db} {notifications : Notifications}
    (h : call.run db = some (db', notifications)) :
    (notifications.outOfStock.OnlyLast ↔ (call.foreseen db).outOfStock.OnlyLast) ∧
      (notifications.backInStock.OnlyLast ↔ (call.foreseen db).backInStock.OnlyLast) := by
  cases call with
  | allocateStocks c =>
    rw [StockCall.run] at h
    split at h
    · cases h
    · rename_i db' hok
      cases h
      exact ⟨allocateNotifying_onlyLast_iff hok, Iff.rfl⟩
  | decreaseStock infos updateStocks allow =>
    rw [StockCall.run] at h
    split at h
    · cases h
    · rename_i db' hok
      cases h
      refine ⟨?_, Iff.rfl⟩
      cases updateStocks with
      | true => exact decreaseNotifying_onlyLast_iff hok
      | false => exact Iff.rfl
  | deallocateStock infos =>
    rw [StockCall.run] at h
    split at h
    · cases h
      exact ⟨Iff.rfl, Iff.rfl⟩
    · cases h
  | deallocateStockForOrders orders =>
    rw [StockCall.run] at h
    cases h
    exact ⟨Iff.rfl, Iff.rfl⟩

/-- **The right stocks are told of** exactly if, in each loop, no test succeeds but for the stock of
the last row. -/
theorem notifiesRight_iff (call : StockCall) (db : Db) :
    call.NotifiesRight db ↔ ((call.run db).isSome →
      (call.foreseen db).outOfStock.OnlyLast ∧ (call.foreseen db).backInStock.OnlyLast) := by
  constructor
  · intro h hsome
    obtain ⟨⟨db', notifications⟩, hrun⟩ := Option.isSome_iff_exists.mp hsome
    obtain ⟨hout, hback⟩ := h db' notifications hrun
    obtain ⟨houtIff, hbackIff⟩ := onlyLast_iff_foreseen hrun
    exact ⟨houtIff.mp (notifications.outOfStock.notified_perm_iff.mp hout),
      hbackIff.mp (notifications.backInStock.notified_perm_iff.mp hback)⟩
  · intro h db' notifications hrun
    obtain ⟨hout, hback⟩ := h (Option.isSome_iff_exists.mpr ⟨_, hrun⟩)
    obtain ⟨houtIff, hbackIff⟩ := onlyLast_iff_foreseen hrun
    exact ⟨notifications.outOfStock.notified_perm_iff.mpr (houtIff.mpr hout),
      notifications.backInStock.notified_perm_iff.mpr (hbackIff.mpr hback)⟩

/-! ### Two stocks -/

/-- Two stocks of a warehouse, of two and of five items. -/
def twoStocks : Db where
  stocks := ⟨[{ pk := 1, warehouse := 1, productVariant := 1, quantity := 2 },
    { pk := 2, warehouse := 1, productVariant := 2, quantity := 5 }], by decide⟩

/-- Two items are taken out of the first stock, and one out of the second. -/
def decreaseBoth : StockCall :=
  .decreaseStock [{ line := 1, quantity := 2, variant := some { pk := 1 }, warehousePk := some 1 },
    { line := 2, quantity := 1, variant := some { pk := 2 }, warehousePk := some 1 }] true false

/-- The first stock runs out, and the second is told of. -/
theorem not_notifiesRight_decreaseBoth : ¬ decreaseBoth.NotifiesRight twoStocks := by
  intro h
  have hrun : (decreaseBoth.run twoStocks).isSome := rfl
  obtain ⟨⟨db', notifications⟩, hrun⟩ := Option.isSome_iff_exists.mp hrun
  have hperm := (h db' notifications hrun).1
  cases hrun
  exact absurd hperm.symm (by decide)

end Stocks

end Aixinwu
