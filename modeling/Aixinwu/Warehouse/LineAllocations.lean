import Aixinwu.Warehouse.Allocate

/-!
# Allocating one line

`_create_allocations` takes a line of an order from the stocks of its variant, one after the other,
from each what is available there and at most what the line still lacks. It hands on the list of
what is insufficient: as it is if the line is full, and with one more entry if it is not, and then
without any allocation.

A stock with nothing available, or less than nothing, is passed over. So the line is full exactly if
what is available, counted from zero up, reaches its quantity; and then all stocks before the last
one are emptied.

## Main definitions

* `returned` — what `_create_allocations` returns
* `FillsInOrder` — a line that is taken from the stocks in their order

## Main results

* `fillsInOrder_of_createAllocations`
* `createAllocations_fills_iff`
-/

namespace Aixinwu

namespace Stocks

/-- What `_create_allocations` returns, by how the loop over the stocks ends; nothing where it falls
through. -/
def returned (info : OrderLineInfo) (insufficientStock : List InsufficientStockData) :
    Filled Allocation → Option (List InsufficientStockData × List Allocation)
  | .filled allocations => some (insufficientStock, allocations)
  | .insufficient =>
    some (insufficientStock
      ++ [{ availableQuantity := 0, variant := info.variant, orderLine := some info.line }], [])
  | .fellThrough => none

/-- **A line is taken from the stocks in their order**: what is allocated is positive, of each stock
at most what is available, and adds up to the quantity; the stocks before the last one that is used
are emptied. -/
structure FillsInOrder (info : OrderLineInfo) (available : Stock → ℤ) (stocks : List Stock)
    (allocations : List Allocation) : Prop where
  bounds : ∀ a ∈ allocations, a.orderLine = info.line ∧ 0 < a.quantityAllocated ∧
    ∃ s ∈ stocks, a.stock = s.pk ∧ (a.quantityAllocated : ℤ) ≤ available s
  sum : (allocations.map fun a => (a.quantityAllocated : ℤ)).sum = info.quantity
  emptied : ∃ before last rest quantity, stocks = before ++ last :: rest ∧
    allocations = (before.filter fun s => 0 < available s).map
      (fun s => ⟨info.line, s.pk, (available s).toNat⟩) ++ [⟨info.line, last.pk, quantity⟩]

section OneLine

variable {info : OrderLineInfo} {stocks : List Stock} {stocksAllocations stocksReservations : ℕ → ℤ}
  {allocations : List Allocation}

/-- **What a line that is full has.** -/
theorem fillsInOrder_of_createAllocations
    (h : createAllocations info stocks stocksAllocations stocksReservations = .filled allocations) :
    FillsInOrder info (quantityAvailableInStock stocksAllocations stocksReservations) stocks
      allocations := by
  have hsum : (allocations.map fun a => (a.quantityAllocated : ℤ)).sum = info.quantity := by
    refine sum_filled ?_ h
    exact fun _ _ => rfl
  obtain ⟨hpos, hmet, rfl⟩ := fillFromStocks_eq_filled h
  refine ⟨?_, hsum, ?_⟩
  · intro a ha
    obtain ⟨e, he, rfl⟩ := List.mem_map.mp ha
    obtain ⟨hgives, hle⟩ := Greedy.pour_le he
    refine ⟨rfl, Int.lt_toNat.mpr hgives, e.1, ?_, rfl, ?_⟩
    · exact (Greedy.pour_sublist _ _).subset (List.mem_map_of_mem he)
    · exact (Int.toNat_of_nonneg hgives.le).trans_le hle
  · obtain ⟨before, last, rest, x, hstocks, hgiven⟩ := Greedy.pour_emptied hpos hmet
    refine ⟨before, last, rest, x.toNat, hstocks, ?_⟩
    rw [hgiven, rowsOf, List.map_append, List.map_map]
    rfl

/-- **A line is full** exactly if enough is available; then it is taken from the stocks in their
order, and else it is the one line that is added to what is insufficient. -/
theorem createAllocations_fills_iff (hquantity : 1 ≤ info.quantity)
    (insufficientStock : List InsufficientStockData) :
    ((∃ allocations, returned info insufficientStock
          (createAllocations info stocks stocksAllocations stocksReservations)
        = some (insufficientStock, allocations)) ↔
      info.quantity ≤ (stocks.map fun s =>
        max (quantityAvailableInStock stocksAllocations stocksReservations s) 0).sum) ∧
    (∀ allocations, returned info insufficientStock
          (createAllocations info stocks stocksAllocations stocksReservations)
        = some (insufficientStock, allocations) →
      FillsInOrder info (quantityAvailableInStock stocksAllocations stocksReservations) stocks
        allocations) ∧
    ((¬ ∃ allocations, returned info insufficientStock
          (createAllocations info stocks stocksAllocations stocksReservations)
        = some (insufficientStock, allocations)) →
      returned info insufficientStock
          (createAllocations info stocks stocksAllocations stocksReservations)
        = some (insufficientStock
          ++ [{ availableQuantity := 0, variant := info.variant, orderLine := some info.line }],
            [])) := by
  set available := quantityAvailableInStock stocksAllocations stocksReservations
  have hpos : 0 < info.quantity := hquantity
  have hrest : (Greedy.pour available info.quantity stocks).2
      = max (info.quantity - (stocks.map fun s => max (available s) 0).sum) 0 :=
    Greedy.pour_snd hpos.le stocks
  have hcreate : createAllocations info stocks stocksAllocations stocksReservations
      = if (Greedy.pour available (info.quantity - 0) stocks).2 = 0 then
          .filled ([] ++ rowsOf _ (Greedy.pour available (info.quantity - 0) stocks).1)
        else .insufficient :=
    fillFromStocks_eq hpos [] stocks
  rw [sub_zero, hrest] at hcreate
  by_cases henough : info.quantity ≤ (stocks.map fun s => max (available s) 0).sum
  · rw [if_pos (max_eq_right (sub_nonpos.mpr henough))] at hcreate
    rw [hcreate, returned]
    refine ⟨iff_of_true ⟨_, rfl⟩ henough, ?_, fun hnot => absurd ⟨_, rfl⟩ hnot⟩
    intro allocations heq
    obtain rfl := (Prod.mk.inj (Option.some.inj heq)).2
    exact fillsInOrder_of_createAllocations hcreate
  · have hlacks : ¬ max (info.quantity - (stocks.map fun s => max (available s) 0).sum) 0 = 0 := by
      omega
    rw [if_neg hlacks] at hcreate
    rw [hcreate, returned]
    have hnot : ∀ allocations : List Allocation, ¬ some (insufficientStock
        ++ [({ availableQuantity := 0, variant := info.variant, orderLine := some info.line } :
          InsufficientStockData)], ([] : List Allocation))
          = some (insufficientStock, allocations) := by
      intro allocations heq
      have hlists := (Prod.mk.inj (Option.some.inj heq)).1
      exact List.cons_ne_nil _ _ (List.append_right_eq_self.mp hlists)
    refine ⟨iff_of_false (fun ⟨allocations, heq⟩ => hnot allocations heq) henough, ?_, fun _ => rfl⟩
    exact fun allocations heq => absurd heq (hnot allocations)

end OneLine

/-- Three items of a line. -/
def threeOfLine : OrderLineInfo := { line := 1, quantity := 3 }

/-- Stocks with two, with one less than nothing, and with four available. -/
def stocksWithGap : List Stock :=
  [⟨1, 1, 1, 2, 0⟩, ⟨2, 2, 1, 0, 1⟩, ⟨3, 3, 1, 4, 0⟩]

/-- Two are taken from the first stock and one from the third. -/
theorem createAllocations_fills_threeOfLine :
    FillsInOrder threeOfLine (quantityAvailableInStock (fun k => if k = 2 then 1 else 0) fun _ => 0)
      stocksWithGap [⟨1, 1, 2⟩, ⟨1, 3, 1⟩] :=
  (createAllocations_fills_iff (by decide) []).2.1 _ (by decide)

end Stocks

end Aixinwu
