import Aixinwu.Warehouse.Allocate

/-!
# Allocations and the quantity of a stock

A line that is allocated gets its quantity from the stocks of its variant, in order, each giving at
most what the maps say is available. So after one call a line has what it asked for, and each stock
gives each line its share of it.

That no stock is oversold is another matter. The maps are not updated from line to line, so two
lines of a variant are given the same items; and when reservations are checked the map of what is
allocated is empty, so items that are allocated already are given again. A stock is then oversold
unless its shares happen to fit.

## Main definitions

* `allocatedIn`, `allocatedTo`, `NoOversell`
* `SharesFit`

## Main results

* `allocatedIn_allocateStocks`, `allocatedTo_allocateStocks`
* `allocateStocks_noOversell_iff`
-/

namespace Aixinwu

namespace Stocks

/-- What is allocated in a stock. -/
def allocatedIn (db : Db) (stock : ℕ) : ℤ :=
  sumIf (fun a => decide (a.stock = stock)) (fun a : Allocation => (a.quantityAllocated : ℤ))
    db.allocations.rows

/-- What is allocated to a line. -/
def allocatedTo (db : Db) (line : ℕ) : ℤ :=
  sumIf (fun a => decide (a.orderLine = line)) (fun a : Allocation => (a.quantityAllocated : ℤ))
    db.allocations.rows

/-- No stock is oversold. -/
def NoOversell (db : Db) : Prop := ∀ s ∈ db.stocks, allocatedIn db s.pk ≤ s.quantity

namespace AllocateStocks

variable (c : AllocateStocks) (db : Db)

/-- What is available in a stock, by the maps of the call. -/
def available : Stock → ℤ := quantityAvailableInStock (c.allocated db) (c.reserved db)

/-- The shares of the lines in a stock. -/
def shares (sorted : List Stock) (s : Stock) : ℤ :=
  sumIf (fun info => info.variant.any (·.pk = s.productVariant))
    (fun info => Greedy.share (c.available db) info.quantity s
      (variantToStocks sorted (some s.productVariant))) c.infos

/-- If reservations are checked, or for a variant of several lines, the shares fit in what is not
allocated yet. -/
def SharesFit : Prop :=
  ∀ sorted, c.sorted db = .ok sorted → ∀ s ∈ sorted,
    c.checkReservations ∨ 1 < (linesWith c.infos s.productVariant).length →
      allocatedIn db s.pk + c.shares db sorted s ≤ s.quantity

/-- Each line has got what it asked for. -/
def Received (db' : Db) : Prop :=
  ∀ line, allocatedTo db' line
    = allocatedTo db line + sumIf (fun info => decide (info.line = line)) (·.quantity) c.infos

end AllocateStocks

variable {c : AllocateStocks} {db db' : Db} {sorted : List Stock}

/-- The map says what is allocated, in the stocks it is made for. -/
theorem quantityAllocationForStocks_eq {stocksId : List ℕ} {stock : ℕ} (h : stock ∈ stocksId) :
    quantityAllocationForStocks db stocksId stock = allocatedIn db stock := by
  rw [quantityAllocationForStocks, sumIf_filter]
  refine sumIf_of_subset (fun a _ ha => (Bool.and_eq_true_iff.mp ha).1) fun a _ ha hno => ?_
  have hstock : a.stock = stock := of_decide_eq_true ha
  have hzero : a.quantityAllocated = 0 := by
    by_contra hne
    refine hno ?_
    simp only [hstock, decide_true, Bool.true_and, Bool.and_eq_true, decide_eq_true_iff]
    exact ⟨h, Nat.pos_of_ne_zero hne⟩
  rw [hzero]
  rfl

/-! ### The stocks of a call -/

theorem mem_stocks {s : Stock} :
    s ∈ c.stocks db ↔ s ∈ db.stocks ∧ c.scope db s ∧
      some s.productVariant ∈ c.infos.map fun info => info.variant.map (·.pk) := by
  rw [AllocateStocks.stocks, mem_orderBy, List.mem_filter, Bool.and_eq_true_iff, decide_eq_true_iff]
  rfl

theorem mem_sorted (h : c.sorted db = .ok sorted) {s : Stock} :
    s ∈ sorted ↔ s ∈ c.stocks db :=
  (sortStocks_perm h).mem_iff

theorem nodup_sorted (h : c.sorted db = .ok sorted) : sorted.Nodup := by
  refine (sortStocks_perm h).nodup_iff.mpr ?_
  exact (orderBy_perm _ _).nodup_iff.mpr (db.stocks.nodup.of_map.filter _)

/-! ### What a line gets -/

variable {info : OrderLineInfo}

theorem create_eq : c.create db sorted info
    = fillFromStocks (fun s quantity => (⟨info.line, s.pk, quantity⟩ : Allocation)) info.quantity
      (c.available db) 0 [] (AllocateStocks.variantToStocks sorted (info.variant.map (·.pk))) := rfl

theorem mem_variantToStocks {variant : Option ℕ} {s : Stock} :
    s ∈ AllocateStocks.variantToStocks sorted variant
      ↔ s ∈ sorted ∧ variant = some s.productVariant := by
  rw [AllocateStocks.variantToStocks, List.mem_filter, decide_eq_true_iff]

/-- A stock gives a line of its variant its share, and other lines nothing. -/
theorem sumIf_stock_items (hsorted : c.sorted db = .ok sorted)
    (hitems : c.create db sorted info = .filled (c.create db sorted info).items) {s : Stock}
    (hs : s ∈ db.stocks) :
    sumIf (fun a => decide (a.stock = s.pk)) (fun a : Allocation => (a.quantityAllocated : ℤ))
        (c.create db sorted info).items
      = if s ∈ sorted ∧ info.variant.any (·.pk = s.productVariant) then
          Greedy.share (c.available db) info.quantity s
            (AllocateStocks.variantToStocks sorted (some s.productVariant))
        else 0 := by
  have hmem : ∀ t ∈ AllocateStocks.variantToStocks sorted (info.variant.map (·.pk)),
      t ∈ db.stocks := fun t ht =>
    (mem_stocks.mp ((mem_sorted hsorted).mp (mem_variantToStocks.mp ht).1)).1
  have hnodup := (nodup_sorted hsorted).filter fun s =>
    decide (info.variant.map (·.pk) = some s.productVariant)
  refine (sumIf_filled ?_ ?_ hmem hnodup (create_eq.symm.trans hitems) hs).trans ?_
  · exact fun _ _ => rfl
  · exact fun _ _ => rfl
  by_cases hin : s ∈ sorted ∧ info.variant.any (·.pk = s.productVariant)
  · have hvariant := any_pk_iff.mp hin.2
    rw [if_pos hin, if_pos (mem_variantToStocks.mpr ⟨hin.1, hvariant⟩), hvariant]
  · rw [if_neg hin, if_neg fun h => hin ?_]
    obtain ⟨hsort, hvariant⟩ := mem_variantToStocks.mp h
    exact ⟨hsort, any_pk_iff.mpr hvariant⟩

/-- A line gets its quantity. -/
theorem sumIf_line_items
    (hitems : c.create db sorted info = .filled (c.create db sorted info).items) (line : ℕ) :
    sumIf (fun a => decide (a.orderLine = line)) (fun a : Allocation => (a.quantityAllocated : ℤ))
        (c.create db sorted info).items
      = if info.line = line then info.quantity else 0 := by
  have hline : ∀ a ∈ (c.create db sorted info).items, a.orderLine = info.line := by
    intro a ha
    obtain ⟨-, -, hrows⟩ := fillFromStocks_eq_filled hitems
    rw [hrows] at ha
    obtain ⟨e, -, rfl⟩ := List.mem_map.mp ha
    rfl
  by_cases h : info.line = line
  · rw [if_pos h, sumIf_of_forall fun a ha => decide_eq_true ((hline a ha).trans h)]
    refine sum_filled ?_ (create_eq.symm.trans hitems)
    exact fun _ _ => rfl
  · rw [if_neg h]
    refine sumIf_eq_zero fun a ha hal => absurd ?_ h
    exact (hline a ha).symm.trans (of_decide_eq_true hal)

/-! ### What a call adds -/

/-- **A stock gains its shares.** -/
theorem allocatedIn_allocateStocks (hsorted : c.sorted db = .ok sorted)
    (hitems : ∀ info ∈ c.infos, c.create db sorted info
      = .filled (c.create db sorted info).items)
    (hrows : db'.allocations.rows
      = db.allocations.rows ++ c.infos.flatMap fun info => (c.create db sorted info).items)
    {s : Stock} (hs : s ∈ db.stocks) :
    allocatedIn db' s.pk
      = allocatedIn db s.pk + if s ∈ sorted then c.shares db sorted s else 0 := by
  rw [allocatedIn, hrows, sumIf_append, sumIf_flatMap,
    List.map_congr_left fun info hinfo => sumIf_stock_items hsorted (hitems info hinfo) hs]
  by_cases hin : s ∈ sorted
  · simp only [hin, true_and, if_true]
    rw [sum_map_ite]
    simp only [Bool.decide_eq_true]
    rfl
  · simp only [hin, false_and, if_false]
    rw [List.sum_map_zero]
    rfl

/-- **A line gains its quantity.** -/
theorem allocatedTo_allocateStocks
    (hitems : ∀ info ∈ c.infos, c.create db sorted info
      = .filled (c.create db sorted info).items)
    (hrows : db'.allocations.rows
      = db.allocations.rows ++ c.infos.flatMap fun info => (c.create db sorted info).items) :
    c.Received db db' := by
  intro line
  rw [allocatedTo, hrows, sumIf_append, sumIf_flatMap,
    List.map_congr_left fun info hinfo => sumIf_line_items (hitems info hinfo) line]
  rw [sum_map_ite]
  rfl

/-! ### One line of a variant -/

/-- If reservations are not checked the map says what is allocated. -/
theorem available_of_not_check (hcheck : ¬ c.checkReservations) {s : Stock}
    (hs : s ∈ c.stocks db) : c.available db s = s.quantity - allocatedIn db s.pk := by
  have hmap : prepareStockToReservedQuantityMap db c.now c.checkoutLines c.checkReservations
      ((c.stocks db).map (·.pk)) = (fun _ => 0, (c.stocks db).map (·.pk)) := by
    rw [prepareStockToReservedQuantityMap, if_neg hcheck]
  have hallocated : c.allocated db s.pk = allocatedIn db s.pk := by
    rw [AllocateStocks.allocated, hmap]
    exact quantityAllocationForStocks_eq (List.mem_map_of_mem hs)
  rw [AllocateStocks.available, quantityAvailableInStock, hallocated, AllocateStocks.reserved, hmap,
    sub_zero]

/-- One line of a variant, and its share of what is not allocated. -/
theorem shares_of_single (hno : NoOversell db) (hcheck : ¬ c.checkReservations)
    (hsorted : c.sorted db = .ok sorted) {s : Stock} (hs : s ∈ sorted)
    (hone : ¬ 1 < (linesWith c.infos s.productVariant).length) :
    allocatedIn db s.pk + c.shares db sorted s ≤ s.quantity := by
  have hin := (mem_sorted hsorted).mp hs
  have hle := hno s (mem_stocks.mp hin).1
  have havailable := available_of_not_check hcheck hin
  rw [AllocateStocks.shares, sumIf, ← linesWith]
  rcases hlines : linesWith c.infos s.productVariant with _ | ⟨info, _ | ⟨info', rest⟩⟩
  · simpa using hle
  · have hshare : Greedy.share (c.available db) info.quantity s
        (AllocateStocks.variantToStocks sorted (some s.productVariant))
          ≤ max (c.available db s) 0 := Greedy.share_le _ _ _
    rw [havailable] at hshare
    rw [List.map_singleton, List.sum_singleton]
    omega
  · rw [hlines] at hone
    exact absurd (by simp) hone

/-- **No stock is oversold, and each line has its quantity, exactly if** the shares fit. -/
theorem allocateStocks_noOversell_iff (h : allocateStocks c db = .ok db') (hno : NoOversell db) :
    (NoOversell db' ∧ c.Received db db') ↔ c.SharesFit db := by
  rcases allocateStocks_eq_ok h with ⟨hnil, rfl⟩ | ⟨sorted, t, hsorted, hitems, hrows, rfl⟩
  · have hstocks : ∀ s, s ∉ c.stocks db' := by
      intro s hs
      have hvariant := (mem_stocks.mp hs).2.2
      rw [hnil] at hvariant
      cases hvariant
    refine ⟨fun _ sorted hsorted s hs => absurd ((mem_sorted hsorted).mp hs) (hstocks s), ?_⟩
    intro _
    refine ⟨hno, fun line => ?_⟩
    rw [hnil, sumIf_nil, add_zero]
  · have hin : ∀ s ∈ db.stocks, allocatedIn { db with
          allocations := t
          stocks := addToQuantityAllocated db.stocks
            ((c.infos.flatMap fun info => (c.create db sorted info).items).map
              fun a => (a.stock, (a.quantityAllocated : ℤ))) } s.pk
        = allocatedIn db s.pk + if s ∈ sorted then c.shares db sorted s else 0 :=
      fun s hs => allocatedIn_allocateStocks hsorted hitems hrows hs
    constructor
    · rintro ⟨hafter, -⟩ sorted' hsorted' s hs -
      obtain rfl := Except.ok.inj (hsorted.symm.trans hsorted')
      have hmem := (mem_stocks.mp ((mem_sorted hsorted).mp hs)).1
      have hle := hafter _ (List.mem_map_of_mem hmem)
      rw [hin s hmem, if_pos hs] at hle
      exact hle
    · intro hfit
      refine ⟨fun s' hs' => ?_, allocatedTo_allocateStocks hitems hrows⟩
      obtain ⟨s, hmem, rfl⟩ := List.mem_map.mp hs'
      refine (hin s hmem).trans_le ?_
      by_cases hs : s ∈ sorted
      · rw [if_pos hs]
        by_cases hcase : c.checkReservations ∨ 1 < (linesWith c.infos s.productVariant).length
        · exact hfit sorted hsorted s hs hcase
        · rw [not_or] at hcase
          exact shares_of_single hno hcase.1 hsorted hs hcase.2
      · rw [if_neg hs, add_zero]
        exact hno s hmem

/-- A warehouse with 5 items of a variant. -/
def stockDb : Db where
  channels := Table.singleton { pk := 1, slug := "default" }
  channelWarehouses := Table.singleton { pk := 1, channel := 1, warehouse := 1 }
  warehouses := Table.singleton { pk := 1, shippingZones := [1] }
  shippingZones := Table.singleton { pk := 1, countries := ["CN"], channels := [1] }
  variants := Table.singleton { pk := 2 }
  stocks := Table.singleton { pk := 3, warehouse := 1, productVariant := 2, quantity := 5 }

/-- A call for lines of that variant. -/
def allocateCall (lines : List (ℕ × ℤ)) (checkReservations : Bool) : AllocateStocks where
  orderLinesInfo := lines.map fun l => { line := l.1, quantity := l.2, variant := some { pk := 2 } }
  countryCode := "CN"
  channel := { pk := 1, slug := "default" }
  checkReservations := checkReservations
  now := 0

/-- One line of 3. -/
theorem allocateStocks_noOversell_oneLine :
    (NoOversell { stockDb with
        allocations := Table.singleton ⟨4, 3, 3⟩
        stocks := Table.singleton ⟨3, 1, 2, 5, 3⟩ } ∧
      (allocateCall [(4, 3)] false).Received stockDb { stockDb with
        allocations := Table.singleton ⟨4, 3, 3⟩
        stocks := Table.singleton ⟨3, 1, 2, 5, 3⟩ }) ↔
      (allocateCall [(4, 3)] false).SharesFit stockDb := by
  have hno : NoOversell stockDb := by
    intro s hs
    obtain rfl := List.mem_singleton.mp (show s ∈ stockDb.stocks.rows from hs)
    decide
  exact allocateStocks_noOversell_iff rfl hno

/-- The 5 items are allocated; a checkout that checks reservations gets 3 of them. -/
theorem allocateStocks_noOversell_checkReservations :
    ¬ ∀ (c : AllocateStocks) (db db' : Db), NoOversell db → allocateStocks c db = .ok db' →
      NoOversell db' := by
  intro h
  have hend := h (allocateCall [(5, 3)] true)
    { stockDb with
      allocations := Table.singleton ⟨4, 3, 5⟩
      stocks := Table.singleton ⟨3, 1, 2, 5, 5⟩ } _ (fun s hs => ?_) rfl
  · have hle := hend _ List.mem_cons_self
    revert hle
    decide
  · obtain rfl := List.mem_singleton.mp hs
    decide

end Stocks

end Aixinwu
