import Aixinwu.Warehouse.Counter

/-!
# Ending a preorder

`deactivate_preorder_for_variant` turns the preorder allocations of a variant into allocations of its
stocks. For each it looks for the stock of the variant in the warehouse of the order, and makes one if
there is none; the stocks that were made and the allocations are written after the loop. So two
allocations that need the same missing stock make it twice, and the database refuses the second. It
also refuses two allocations of a line in one stock, which is what a line with two preorder allocations
comes to, or one that is allocated there already.

The operation is one transaction, so an `Except.error` leaves the database as it was.

## Main definitions

* `PreorderEnded` — what ending a preorder promises
* `PromisesApart` — no two preorder allocations get in each other's way

## Main results

* `bulkCreateStocks_isSome_iff`, `insertAll_allocationsOf_isSome_iff` — when the two writes are accepted
* `preorderEnded_iff`
-/

namespace Aixinwu

namespace Stocks

/-- What the database guarantees of stocks and allocations. -/
structure StockConstraints (db : Db) : Prop where
  unique : (db.stocks.rows.map fun s => (s.warehouse, s.productVariant)).Nodup
  stock_exists : ∀ a ∈ db.allocations, ∃ s ∈ db.stocks, s.pk = a.stock

/-- **The preorder has ended**: there are no preorder allocations, each line has an allocation of its
quantity in its warehouse, a warehouse has one stock of a variant, and the preorder's fields are
cleared. -/
structure PreorderEnded (db db' : Db) (variant : ℕ) : Prop where
  none_left : preorderAllocationsOf db' variant = []
  allocated : ∀ a ∈ preorderAllocationsOf db variant, ∃ w s,
    warehouseForPreorderAllocation db a.orderLine = some w ∧ s ∈ db'.stocks ∧ s.warehouse = w.pk ∧
      s.productVariant = variant ∧
      db'.allocations.find? (a.orderLine, s.pk) = some ⟨a.orderLine, s.pk, a.quantity⟩
  unique : (db'.stocks.rows.map fun s => (s.warehouse, s.productVariant)).Nodup
  cleared : ∀ v ∈ db'.variants, v.pk = variant →
    v.isPreorder = false ∧ v.preorderEndDate = none ∧ v.preorderGlobalThreshold = none
  thresholds : ∀ l ∈ db'.channelListings, l.variant = variant → l.preorderQuantityThreshold = none

/-- The key of the warehouse of an allocation. -/
def warehousePkFor (db : Db) (a : PreorderAllocation) : Option ℕ :=
  (warehouseForPreorderAllocation db a.orderLine).map (·.pk)

/-- **No two preorder allocations get in each other's way**: they are for different lines and do not
need the same missing stock; nor is a line allocated already in the stock it needs. -/
structure PromisesApart (db : Db) (variant : ℕ) : Prop where
  apart : (preorderAllocationsOf db variant).Pairwise fun a b =>
    a.orderLine ≠ b.orderLine ∧
      (existingStockFor db variant a = none → existingStockFor db variant b = none →
        warehousePkFor db a ≠ warehousePkFor db b)
  unallocated : ∀ a ∈ preorderAllocationsOf db variant, ∀ stock,
    existingStockFor db variant a = some stock → db.allocations.find? (a.orderLine, stock) = none

variable {db : Db} {variant : ℕ}

/-! ### The loop -/

/-- What the loop pairs an allocation with. -/
def PairedWith (db : Db) (variant : ℕ) (f : PreorderAllocation × ℕ × Option Stock) : Prop :=
  match f.2.2 with
  | none => existingStockFor db variant f.1 = some f.2.1
  | some s => existingStockFor db variant f.1 = none ∧ warehousePkFor db f.1 = some s.warehouse ∧
      s.pk = f.2.1 ∧ s.productVariant = variant

/-- Where a warehouse is found for each allocation, the loop does not fail. -/
theorem exists_stocksForPreorderAllocations {l : List PreorderAllocation}
    (h : ∀ a ∈ l, (warehouseForPreorderAllocation db a.orderLine).isSome) (next : ℕ) :
    ∃ found, stocksForPreorderAllocations db variant next l = .ok found ∧ found.map (·.1) = l ∧
      (∀ f ∈ found, PairedWith db variant f) ∧
      ∃ k, (found.filterMap (·.2.2)).map (·.pk) = List.range' next k := by
  induction l generalizing next with
  | nil => exact ⟨[], rfl, rfl, fun f hf => absurd hf List.not_mem_nil, 0, rfl⟩
  | cons a l ih =>
    obtain ⟨ha, hl⟩ := List.forall_mem_cons.mp h
    obtain ⟨w, hw⟩ := Option.isSome_iff_exists.mp ha
    rw [stocksForPreorderAllocations, hw]
    rcases hs : findStock db w.pk variant with _ | s
    · obtain ⟨found, hfound, hfst, hpaired, k, hk⟩ := ih hl (next + 1)
      simp only [hs, hfound]
      refine ⟨_, rfl, by rw [List.map_cons, hfst], List.forall_mem_cons.mpr ⟨?_, hpaired⟩, k + 1, ?_⟩
      · refine ⟨?_, ?_, rfl, rfl⟩
        · rw [existingStockFor, hw, Option.bind_some, hs, Option.map_none]
        · rw [warehousePkFor, hw, Option.map_some]
      · simp only [List.filterMap_cons, List.map_cons, hk, List.range'_succ]
    · obtain ⟨found, hfound, hfst, hpaired, k, hk⟩ := ih hl next
      simp only [hs, hfound]
      refine ⟨_, rfl, by rw [List.map_cons, hfst], List.forall_mem_cons.mpr ⟨?_, hpaired⟩, k, ?_⟩
      · show existingStockFor db variant a = some s.pk
        rw [existingStockFor, hw, Option.bind_some, hs, Option.map_some]
      · simp only [List.filterMap_cons, hk]

/-! ### The two writes -/

theorem lt_nextStockPk {s : Stock} (hs : s ∈ db.stocks) : s.pk < nextStockPk db := by
  have hle : ∀ {l : List ℕ} {k : ℕ}, k ∈ l → k ≤ l.foldr max 0 := by
    intro l k hk
    induction l with
    | nil => exact absurd hk List.not_mem_nil
    | cons x l ih =>
      rcases List.mem_cons.mp hk with rfl | hk
      · exact le_max_left _ _
      · exact (ih hk).trans (le_max_right _ _)
  exact Nat.lt_succ_of_le (hle (List.mem_map_of_mem hs))

variable {found : List (PreorderAllocation × ℕ × Option Stock)}

/-- An allocation is paired with a new stock just if its stock is missing. -/
theorem PairedWith.existing {f : PreorderAllocation × ℕ × Option Stock}
    (hf : PairedWith db variant f) :
    existingStockFor db variant f.1 = if f.2.2 = none then some f.2.1 else none := by
  obtain ⟨a, stock, new⟩ := f
  rcases new with _ | s
  · exact hf
  · exact hf.1

theorem PairedWith.new {f : PreorderAllocation × ℕ × Option Stock} (hf : PairedWith db variant f)
    {s : Stock} (hs : f.2.2 = some s) : warehousePkFor db f.1 = some s.warehouse ∧ s.pk = f.2.1 ∧
      s.productVariant = variant := by
  obtain ⟨a, stock, new⟩ := f
  obtain rfl : new = some s := hs
  exact hf.2

/-- The stock of an allocation that exists is one of its variant in its warehouse. -/
theorem of_existingStockFor {a : PreorderAllocation} {stock : ℕ}
    (h : existingStockFor db variant a = some stock) :
    ∃ w s, warehouseForPreorderAllocation db a.orderLine = some w ∧ s ∈ db.stocks ∧ s.pk = stock ∧
      s.warehouse = w.pk ∧ s.productVariant = variant := by
  rw [existingStockFor, Option.map_eq_some_iff] at h
  obtain ⟨s, hs, rfl⟩ := h
  obtain ⟨w, hw, hs⟩ := Option.bind_eq_some_iff.mp hs
  have hmatch := List.find?_some hs
  rw [Bool.and_eq_true, decide_eq_true_iff, decide_eq_true_iff] at hmatch
  exact ⟨w, s, hw, List.mem_of_find?_eq_some hs, rfl, hmatch.1, hmatch.2⟩

/-- A missing stock is one that no row is. -/
theorem not_mem_of_missing {a : PreorderAllocation} (h : existingStockFor db variant a = none)
    {warehouse : ℕ} (hw : warehousePkFor db a = some warehouse) {s : Stock} (hs : s ∈ db.stocks)
    (hvariant : s.productVariant = variant) : s.warehouse ≠ warehouse := by
  intro heq
  obtain ⟨w, hfor, rfl⟩ := Option.map_eq_some_iff.mp hw
  rw [existingStockFor, hfor, Option.bind_some, Option.map_eq_none_iff] at h
  have hno := List.find?_eq_none.mp h s hs
  simp [heq, hvariant] at hno

/-- **The stocks that were made are accepted** if no two allocations needed the same one. -/
theorem bulkCreateStocks_isSome_iff (hdb : StockConstraints db)
    (hpaired : ∀ f ∈ found, PairedWith db variant f) {k : ℕ}
    (hpks : (found.filterMap (·.2.2)).map (·.pk) = List.range' (nextStockPk db) k) :
    (bulkCreateStocks db (found.filterMap (·.2.2))).isSome ↔
      found.Pairwise fun f g => existingStockFor db variant f.1 = none →
        existingStockFor db variant g.1 = none → warehousePkFor db f.1 ≠ warehousePkFor db g.1 := by
  have hinsert : (db.stocks.insertAll (found.filterMap (·.2.2))).isSome := by
    refine Table.insertAll_isSome_iff.mpr ⟨?_, fun r hr s hs => ?_⟩
    · show ((found.filterMap (·.2.2)).map (·.pk)).Nodup
      rw [hpks]
      exact List.nodup_range'
    · have hnew : r.pk ∈ List.range' (nextStockPk db) k := hpks ▸ List.mem_map_of_mem hr
      have hle := (List.mem_range'_1.mp hnew).1
      exact ((lt_nextStockPk hs).trans_le hle).ne
  have hnew : ((found.filterMap (·.2.2)).map fun s => (s.warehouse, s.productVariant)).Nodup ↔
      found.Pairwise fun f g => existingStockFor db variant f.1 = none →
        existingStockFor db variant g.1 = none →
          warehousePkFor db f.1 ≠ warehousePkFor db g.1 := by
    rw [List.Nodup, List.pairwise_map, List.pairwise_filterMap]
    refine List.Pairwise.iff_of_mem fun {f g} hf hg => ?_
    have hpf := hpaired f hf
    have hpg := hpaired g hg
    rw [hpf.existing, hpg.existing]
    rcases hfnew : f.2.2 with _ | s
    · simp
    rcases hgnew : g.2.2 with _ | t
    · simp
    obtain ⟨hws, -, hvs⟩ := hpf.new hfnew
    obtain ⟨hwt, -, hvt⟩ := hpg.new hgnew
    simp [hws, hwt, hvs, hvt]
  have hall : ((db.stocks.rows ++ found.filterMap (·.2.2)).map
      fun s => (s.warehouse, s.productVariant)).Nodup ↔
        ((found.filterMap (·.2.2)).map fun s => (s.warehouse, s.productVariant)).Nodup := by
    rw [List.map_append, List.nodup_append]
    refine ⟨fun h => h.2.1, fun h => ⟨hdb.unique, h, fun x hx y hy hxy => ?_⟩⟩
    obtain ⟨s, hs, rfl⟩ := List.mem_map.mp hx
    obtain ⟨t, ht, rfl⟩ := List.mem_map.mp hy
    obtain ⟨f, hf, hft⟩ := List.mem_filterMap.mp ht
    obtain ⟨hwt, -, hvt⟩ := (hpaired f hf).new hft
    have hmissing : existingStockFor db variant f.1 = none := by
      rw [(hpaired f hf).existing, hft]
      rfl
    obtain ⟨hw, hv⟩ := Prod.mk.inj hxy
    exact not_mem_of_missing hmissing hwt hs (hv.trans hvt) hw
  rw [bulkCreateStocks, ← hnew, ← hall]
  split_ifs with h
  · exact iff_of_true hinsert h
  · exact iff_of_false (by simp) h

/-- The allocations that are made. -/
def allocationsOf (found : List (PreorderAllocation × ℕ × Option Stock)) : List Allocation :=
  found.map fun f => ⟨f.1.orderLine, f.2.1, f.1.quantity⟩

/-- **The allocations that were made are accepted** if a line has one in a stock. -/
theorem insertAll_allocationsOf_isSome_iff :
    (db.allocations.insertAll (allocationsOf found)).isSome ↔
      (found.Pairwise fun f g => (f.1.orderLine, f.2.1) ≠ (g.1.orderLine, g.2.1)) ∧
        ∀ f ∈ found, db.allocations.find? (f.1.orderLine, f.2.1) = none := by
  rw [Table.insertAll_isSome_iff, allocationsOf, List.map_map, List.Nodup, List.pairwise_map]
  refine and_congr Iff.rfl ⟨fun h f hf => ?_, fun h r hr s hs => ?_⟩
  · exact Table.find?_eq_none.mpr (h _ (List.mem_map_of_mem hf))
  · obtain ⟨f, hf, rfl⟩ := List.mem_map.mp hr
    exact Table.find?_eq_none.mp (h f hf) s hs

/-- **Both writes are accepted just if the preorder allocations do not get in each other's way.** -/
theorem ended_accepted_iff (hdb : StockConstraints db)
    (hfst : found.map (·.1) = preorderAllocationsOf db variant)
    (hpaired : ∀ f ∈ found, PairedWith db variant f) {k : ℕ}
    (hpks : (found.filterMap (·.2.2)).map (·.pk) = List.range' (nextStockPk db) k) :
    ((bulkCreateStocks db (found.filterMap (·.2.2))).isSome ∧
      (db.allocations.insertAll (allocationsOf found)).isSome) ↔ PromisesApart db variant := by
  rw [bulkCreateStocks_isSome_iff hdb hpaired hpks, insertAll_allocationsOf_isSome_iff]
  constructor
  · rintro ⟨hstocks, hkeys, hfree⟩
    refine ⟨?_, fun a ha stock hstock => ?_⟩
    · rw [← hfst, List.pairwise_map]
      refine (hstocks.and hkeys).imp_of_mem fun {f g} hf hg ⟨hstock, hkey⟩ => ⟨fun hline => ?_, hstock⟩
      -- the warehouse and the stock are those of the line
      have hexisting : existingStockFor db variant f.1 = existingStockFor db variant g.1 := by
        rw [existingStockFor, existingStockFor, hline]
      have hwarehouse : warehousePkFor db f.1 = warehousePkFor db g.1 := by
        rw [warehousePkFor, warehousePkFor, hline]
      rcases hf' : existingStockFor db variant f.1 with _ | stock
      · exact hstock hf' (hexisting.symm.trans hf') hwarehouse
      · have hpf := (hpaired f hf).existing
        have hpg := (hpaired g hg).existing
        rw [← hexisting, hf'] at hpg
        rw [hf'] at hpf
        split_ifs at hpf hpg
        exact hkey (Prod.ext hline (Option.some.inj (hpf.symm.trans hpg)))
    · rw [← hfst] at ha
      obtain ⟨f, hf, rfl⟩ := List.mem_map.mp ha
      have hpf := (hpaired f hf).existing
      rw [hstock] at hpf
      split_ifs at hpf
      rw [Option.some.inj hpf]
      exact hfree f hf
  · rintro ⟨hapart, hfree⟩
    rw [← hfst, List.pairwise_map] at hapart
    refine ⟨hapart.imp fun h => h.2, hapart.imp fun h hkey => h.1 (Prod.mk.inj hkey).1,
      fun f hf => ?_⟩
    have hmem : f.1 ∈ preorderAllocationsOf db variant := hfst ▸ List.mem_map_of_mem hf
    have hpf := (hpaired f hf).existing
    rcases hnew : f.2.2 with _ | s
    · rw [hnew, if_pos rfl] at hpf
      exact hfree f.1 hmem _ hpf
    · -- no allocation is in a stock that does not exist yet
      refine Table.find?_eq_none.mpr fun a ha hkey => ?_
      obtain ⟨t, ht, htpk⟩ := hdb.stock_exists a ha
      obtain ⟨-, hpk, -⟩ := (hpaired f hf).new hnew
      have hrange : s.pk ∈ List.range' (nextStockPk db) k :=
        hpks ▸ List.mem_map_of_mem (List.mem_filterMap.mpr ⟨f, hf, hnew⟩)
      have hle := (List.mem_range'_1.mp hrange).1
      have hlt := lt_nextStockPk ht
      have hstock : a.stock = f.2.1 := (Prod.mk.inj hkey).2
      omega

/-! ### The operation -/

/-- What the operation comes to after the loop. -/
theorem deactivatePreorderForVariant_eq {v : ProductVariant} (hv : v.isPreorder = true)
    (hfound : stocksForPreorderAllocations db v.pk (nextStockPk db) (preorderAllocationsOf db v.pk)
      = .ok found) {db' : Db} :
    deactivatePreorderForVariant v db = .ok db' ↔
      ∃ stocks allocations, bulkCreateStocks db (found.filterMap (·.2.2)) = some stocks ∧
        db.allocations.insertAll (allocationsOf found) = some allocations ∧
        db' = { db with
          stocks := addToQuantityAllocated stocks
            ((found.filter (·.2.2 = none)).map fun f => (f.2.1, (f.1.quantity : ℤ)))
          allocations := allocations
          preorderAllocations := db.preorderAllocations.delete fun a =>
            (db.channelListings.find? a.productVariantChannelListing).any (·.variant = v.pk)
          variants := db.variants.modify v.pk (fun v => { v with
            isPreorder := false
            preorderEndDate := none
            preorderGlobalThreshold := none }) fun _ => rfl
          channelListings := db.channelListings.map
            (fun l => if l.variant = v.pk then
              { l with preorderQuantityThreshold := none } else l)
            fun l => by split <;> rfl } := by
  rw [deactivatePreorderForVariant, hv]
  simp only [Bool.not_true, Bool.false_eq_true, if_false, hfound]
  have hallocations : (found.map fun f => (⟨f.1.orderLine, f.2.1, f.1.quantity⟩ : Allocation))
      = allocationsOf found := rfl
  rw [hallocations]
  rcases hs : bulkCreateStocks db (found.filterMap (·.2.2)) with _ | stocks
  · simp only [hs]
    simp
  rcases ha : db.allocations.insertAll (allocationsOf found) with _ | allocations
  · simp only [hs]
    simp
  · simp only [hs]
    simp [eq_comm]

/-- **What the operation leaves is what ending the preorder promises.** -/
theorem preorderEnded_of_ok {v : ProductVariant} (hv : v.isPreorder = true) {db' : Db}
    (hwarehouse : ∀ a ∈ preorderAllocationsOf db v.pk,
      (warehouseForPreorderAllocation db a.orderLine).isSome)
    (hok : deactivatePreorderForVariant v db = .ok db') : PreorderEnded db db' v.pk := by
  obtain ⟨found, hfound, hfst, hpaired, k, hpks⟩ :=
    exists_stocksForPreorderAllocations hwarehouse (nextStockPk db)
  obtain ⟨stocks, allocations, hstocks, hallocations, rfl⟩ :=
    (deactivatePreorderForVariant_eq hv hfound).mp hok
  have hallocated := Table.insertAll_eq_some.mp hallocations
  have hrows : stocks.rows = db.stocks.rows ++ found.filterMap (·.2.2) ∧
      (stocks.rows.map fun s => (s.warehouse, s.productVariant)).Nodup := by
    rw [bulkCreateStocks] at hstocks
    split_ifs at hstocks with hunique
    rw [Table.insertAll_eq_some.mp hstocks]
    exact ⟨rfl, hunique⟩
  constructor
  · refine List.filter_eq_nil_iff.mpr fun a ha => ?_
    obtain ⟨-, hnot⟩ := Table.mem_delete.mp ha
    rw [Table.find?_map]
    rcases hl : db.channelListings.find? a.productVariantChannelListing with _ | l
    · exact Bool.noConfusion
    · rw [hl, Option.any_some] at hnot
      have hvariant : l.variant ≠ v.pk := by simpa using hnot
      simp [hvariant]
  · intro a ha
    rw [← hfst] at ha
    obtain ⟨f, hf, rfl⟩ := List.mem_map.mp ha
    have hmem : (⟨f.1.orderLine, f.2.1, f.1.quantity⟩ : Allocation) ∈ allocations := by
      rw [Table.mem_def, hallocated]
      exact List.mem_append_right _ (List.mem_map_of_mem hf)
    have hfind : allocations.find? (f.1.orderLine, f.2.1)
        = some ⟨f.1.orderLine, f.2.1, f.1.quantity⟩ := Table.find?_eq_some.mpr ⟨hmem, rfl⟩
    obtain ⟨w, s, hw, hs, hpk, hsw, hsv⟩ : ∃ w s,
        warehouseForPreorderAllocation db f.1.orderLine = some w ∧ s ∈ stocks ∧ s.pk = f.2.1 ∧
          s.warehouse = w.pk ∧ s.productVariant = v.pk := by
      have hpf := (hpaired f hf).existing
      rcases hnew : f.2.2 with _ | s
      · rw [hnew, if_pos rfl] at hpf
        obtain ⟨w, s, hw, hs, hpk, hsw, hsv⟩ := of_existingStockFor hpf
        refine ⟨w, s, hw, ?_, hpk, hsw, hsv⟩
        rw [Table.mem_def, hrows.1]
        exact List.mem_append_left _ hs
      · obtain ⟨hsw, hpk, hsv⟩ := (hpaired f hf).new hnew
        obtain ⟨w, hw, hwpk⟩ := Option.map_eq_some_iff.mp hsw
        refine ⟨w, s, hw, ?_, hpk, hwpk.symm, hsv⟩
        rw [Table.mem_def, hrows.1]
        exact List.mem_append_right _ (List.mem_filterMap.mpr ⟨f, hf, hnew⟩)
    refine ⟨w, _, hw, mem_addToQuantityAllocated.mpr ⟨s, hs, rfl⟩, hsw, hsv, ?_⟩
    rw [hpk]
    exact hfind
  · have hsame : (addToQuantityAllocated stocks
        ((found.filter (·.2.2 = none)).map fun f => (f.2.1, (f.1.quantity : ℤ)))).rows.map
          (fun s => (s.warehouse, s.productVariant))
        = stocks.rows.map fun s => (s.warehouse, s.productVariant) := by
      rw [addToQuantityAllocated, Table.rows_map, List.map_map]
      rfl
    rw [hsame]
    exact hrows.2
  · intro u hu hpk
    obtain ⟨w, -, rfl⟩ := List.mem_map.mp hu
    split_ifs at hpk ⊢ with heq
    · exact ⟨rfl, rfl, rfl⟩
    · exact absurd hpk heq
  · intro l hl hvariant
    obtain ⟨m, -, rfl⟩ := List.mem_map.mp hl
    split_ifs at hvariant ⊢ with heq
    · rfl
    · exact absurd hvariant heq

/-- **Ending a preorder keeps every promise** just if no two of them get in each other's way. -/
theorem preorderEnded_iff (hdb : StockConstraints db) {v : ProductVariant}
    (hv : v.isPreorder = true)
    (hwarehouse : ∀ a ∈ preorderAllocationsOf db v.pk,
      (warehouseForPreorderAllocation db a.orderLine).isSome) :
    (∃ db', deactivatePreorderForVariant v db = .ok db' ∧ PreorderEnded db db' v.pk) ↔
      PromisesApart db v.pk := by
  obtain ⟨found, hfound, hfst, hpaired, k, hpks⟩ :=
    exists_stocksForPreorderAllocations hwarehouse (nextStockPk db)
  rw [← ended_accepted_iff hdb hfst hpaired hpks, Option.isSome_iff_exists, Option.isSome_iff_exists]
  constructor
  · rintro ⟨db', hok, -⟩
    obtain ⟨stocks, allocations, hstocks, hallocations, -⟩ :=
      (deactivatePreorderForVariant_eq hv hfound).mp hok
    exact ⟨⟨stocks, hstocks⟩, ⟨allocations, hallocations⟩⟩
  · rintro ⟨⟨stocks, hstocks⟩, ⟨allocations, hallocations⟩⟩
    have hok := (deactivatePreorderForVariant_eq hv hfound).mpr
      ⟨stocks, allocations, hstocks, hallocations, rfl⟩
    exact ⟨_, hok, preorderEnded_of_ok hv hwarehouse hok⟩

/-- A variant in preorder, sold on the lines `lines` of orders that are shipped from one warehouse,
which has no stock of it. -/
def preorderShop (lines : List ℕ) (h : lines.Nodup) : Db where
  warehouses := Table.singleton { pk := 1, shippingZones := [1] }
  variants := Table.singleton { pk := 1, isPreorder := true }
  channelListings := Table.singleton { pk := 1, variant := 1, channel := 1 }
  orders := Table.singleton { pk := 1, status := .unfulfilled, shippingZone := some 1 }
  orderLines := ⟨lines.map fun l => ⟨l, 1, some 1⟩, by
    rw [List.map_map]
    exact h.map fun _ _ heq => heq⟩
  preorderAllocations := ⟨lines.map fun l => ⟨l, 2, 1⟩, by
    rw [List.map_map]
    exact h.map fun _ _ heq => (Prod.mk.inj heq).1⟩

/-- **Two lines that need the same missing stock** keep the preorder from ending. -/
theorem preorderEnded_not_always :
    ¬ ∀ (db : Db) (v : ProductVariant), StockConstraints db → v.isPreorder = true →
      (∀ a ∈ preorderAllocationsOf db v.pk,
        (warehouseForPreorderAllocation db a.orderLine).isSome) →
      ∃ db', deactivatePreorderForVariant v db = .ok db' ∧ PreorderEnded db db' v.pk := by
  intro h
  have hno : (deactivatePreorderForVariant { pk := 1, isPreorder := true }
      (preorderShop [1, 2] (by decide))).toOption.isSome = false := by rfl
  obtain ⟨db', hok, -⟩ := h (preorderShop [1, 2] (by decide)) { pk := 1, isPreorder := true }
    ⟨List.nodup_nil, fun a ha => absurd ha List.not_mem_nil⟩ rfl (by decide)
  rw [hok] at hno
  cases hno

/-- With one line the stock is made and the preorder ends. -/
theorem preorderEnded_one :
    ∃ db', deactivatePreorderForVariant { pk := 1, isPreorder := true }
        (preorderShop [1] (by decide)) = .ok db' ∧
      PreorderEnded (preorderShop [1] (by decide)) db' 1 :=
  (@preorderEnded_iff (preorderShop [1] (by decide))
    ⟨List.nodup_nil, fun a ha => absurd ha List.not_mem_nil⟩ { pk := 1, isPreorder := true } rfl
    (by decide)).mpr
    ⟨List.pairwise_singleton _ _, fun a _ stock _ => rfl⟩

end Stocks

end Aixinwu
