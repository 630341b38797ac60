import Aixinwu.Warehouse.Deallocate

/-!
# The counter of a stock

`Stock.quantity_allocated` repeats what the allocations of the stock add up to. Every operation that
writes allocations keeps it by hand, mostly with one `bulk_update` of a batch of expressions, and a
batch that meets a stock twice writes the first expression only. So the counter survives every run
whose batches meet each stock once, or the second time with nothing; what that means is said of each
operation's arguments and of the tables before it. One operation writes allocations without a
counter: `decrease_stock` sets the allocations of the lines that could not be deallocated to zero,
which they are already, unless a line asked for less than nothing.

## Main definitions

* `Counted` — the counters are right, and no allocation refers to a stock that does not exist
* `AllocateStocks.VariantsOnce`, `DrawnOnce`, `NothingLeft`, `AllocatedOnce`, `DeletedOnce`,
  `PreordersOnce` — what the operations need

## Main results

* `Counted.of_increments` — a batch that meets each stock once
* `counted_allocateStocks` and its siblings
-/

namespace Aixinwu

namespace Stocks

/-- The counters are right. -/
structure Counted (db : Db) : Prop where
  counter : ∀ s ∈ db.stocks, s.quantityAllocated = allocatedIn db s.pk
  stock_exists : ∀ a ∈ db.allocations, ∃ s ∈ db.stocks, s.pk = a.stock

variable {db db' : Db}

/-! ### Batches -/

theorem mem_addToQuantityAllocated {stocks : Table Stock} {increments : List (ℕ × ℤ)} {s : Stock} :
    s ∈ addToQuantityAllocated stocks increments ↔ ∃ t ∈ stocks, s = { t with
      quantityAllocated := t.quantityAllocated + Keyed.firstAt t.pk increments } := by
  constructor
  · intro h
    obtain ⟨t, ht, rfl⟩ := List.mem_map.mp h
    exact ⟨t, ht, rfl⟩
  · rintro ⟨t, ht, rfl⟩
    exact List.mem_map.mpr ⟨t, ht, rfl⟩

/-- **A batch that meets each stock once**, or later with nothing, keeps the counters right. -/
theorem Counted.of_increments {increments : List (ℕ × ℤ)} (h : Counted db)
    (hstocks : db'.stocks = addToQuantityAllocated db.stocks increments)
    (honce : ∀ stock, Keyed.firstAt stock increments = Keyed.sumAt stock increments)
    (hallocated : ∀ stock,
      allocatedIn db' stock = allocatedIn db stock + Keyed.sumAt stock increments)
    (hexists : ∀ a ∈ db'.allocations, ∃ s ∈ db.stocks, s.pk = a.stock) : Counted db' := by
  constructor
  · intro s hs
    rw [hstocks, mem_addToQuantityAllocated] at hs
    obtain ⟨t, ht, rfl⟩ := hs
    show t.quantityAllocated + Keyed.firstAt t.pk increments = allocatedIn db' t.pk
    rw [hallocated, h.counter t ht, honce]
  · intro a ha
    obtain ⟨t, ht, hpk⟩ := hexists a ha
    rw [hstocks]
    exact ⟨_, mem_addToQuantityAllocated.mpr ⟨t, ht, rfl⟩, hpk⟩

/-- Changing the quantities of stocks does not matter. -/
theorem Counted.of_quantity (h : Counted db) (quantity : Stock → ℤ)
    (hstocks : db'.stocks.rows = db.stocks.rows.map fun s => { s with quantity := quantity s })
    (hallocations : db'.allocations = db.allocations) : Counted db' := by
  have hallocated : ∀ stock, allocatedIn db' stock = allocatedIn db stock := by
    intro stock
    rw [allocatedIn, hallocations, allocatedIn]
  constructor
  · intro s hs
    rw [Table.mem_def, hstocks] at hs
    obtain ⟨t, ht, rfl⟩ := List.mem_map.mp hs
    rw [hallocated]
    exact h.counter t ht
  · intro a ha
    rw [hallocations] at ha
    obtain ⟨t, ht, hpk⟩ := h.stock_exists a ha
    refine ⟨{ t with quantity := quantity t }, ?_, hpk⟩
    rw [Table.mem_def, hstocks]
    exact List.mem_map_of_mem ht

/-! ### Allocating -/

/-- The lines that are allocated have different variants. -/
def AllocateStocks.VariantsOnce (c : AllocateStocks) : Prop :=
  (c.infos.map fun info => info.variant.map (·.pk)).Nodup

/-- The allocations of a line are in different stocks of its variant. -/
theorem stocks_of_items {c : AllocateStocks} {sorted : List Stock} {info : OrderLineInfo}
    (hsorted : c.sorted db = .ok sorted)
    (hitems : c.create db sorted info = .filled (c.create db sorted info).items) :
    ((c.create db sorted info).items.map (·.stock)).Nodup ∧
    ∀ a ∈ (c.create db sorted info).items, ∃ s ∈ db.stocks,
      s.pk = a.stock ∧ info.variant.map (·.pk) = some s.productVariant := by
  obtain ⟨-, -, heq⟩ := fillFromStocks_eq_filled (create_eq.symm.trans hitems)
  have hsub := @Greedy.pour_sublist Stock (c.available db) info.quantity
    (AllocateStocks.variantToStocks sorted (info.variant.map (·.pk)))
  have hmem : ∀ s ∈ AllocateStocks.variantToStocks sorted (info.variant.map (·.pk)),
      s ∈ db.stocks ∧ info.variant.map (·.pk) = some s.productVariant := fun s hs =>
    ⟨(mem_stocks.mp ((mem_sorted hsorted).mp (mem_variantToStocks.mp hs).1)).1,
      (mem_variantToStocks.mp hs).2⟩
  have hnodup : (AllocateStocks.variantToStocks sorted (info.variant.map (·.pk))).Nodup :=
    (nodup_sorted hsorted).filter _
  rw [heq, rowsOf]
  constructor
  · rw [List.map_map]
    have hpks : ((Greedy.pour (c.available db) info.quantity
        (AllocateStocks.variantToStocks sorted (info.variant.map (·.pk)))).1.map (·.1)).map
          (·.pk) |>.Nodup := by
      refine (hsub.nodup hnodup).map_on fun s hs t ht hpk => ?_
      exact Table.eq_of_pk_eq (hmem s (hsub.subset hs)).1 (hmem t (hsub.subset ht)).1 hpk
    rw [List.map_map] at hpks
    exact hpks
  · intro a ha
    obtain ⟨e, he, rfl⟩ := List.mem_map.mp ha
    obtain ⟨hs, hvariant⟩ := hmem e.1 (hsub.subset (List.mem_map_of_mem he))
    exact ⟨e.1, hs, rfl, hvariant⟩

theorem counted_allocateStocks {c : AllocateStocks} (h : Counted db) (honce : c.VariantsOnce)
    (hok : allocateStocks c db = .ok db') : Counted db' := by
  rcases allocateStocks_eq_ok hok with ⟨-, rfl⟩ | ⟨sorted, t, hsorted, hall, hrows, rfl⟩
  · exact h
  have hexists : ∀ a ∈ c.infos.flatMap fun info => (c.create db sorted info).items,
      ∃ s ∈ db.stocks, s.pk = a.stock := by
    intro a ha
    obtain ⟨info, hinfo, ha⟩ := List.mem_flatMap.mp ha
    obtain ⟨s, hs, hpk, -⟩ := (stocks_of_items hsorted (hall info hinfo)).2 a ha
    exact ⟨s, hs, hpk⟩
  have hnodup : ((c.infos.flatMap fun info => (c.create db sorted info).items).map
      (·.stock)).Nodup := by
    rw [List.map_flatMap]
    refine List.nodup_flatMap.mpr ⟨fun info hinfo =>
      (stocks_of_items hsorted (hall info hinfo)).1, ?_⟩
    refine (List.pairwise_map.mp honce).imp_of_mem fun {info info'} hinfo hinfo' hne => ?_
    intro k hk hk'
    obtain ⟨a, ha, rfl⟩ := List.mem_map.mp hk
    obtain ⟨a', ha', heq⟩ := List.mem_map.mp hk'
    obtain ⟨s, hs, hpk, hvariant⟩ := (stocks_of_items hsorted (hall info hinfo)).2 a ha
    obtain ⟨s', hs', hpk', hvariant'⟩ := (stocks_of_items hsorted (hall info' hinfo')).2 a' ha'
    obtain rfl : s = s' := Table.eq_of_pk_eq hs hs' (hpk.trans (heq.symm.trans hpk'.symm))
    exact hne (hvariant.trans hvariant'.symm)
  refine h.of_increments rfl ?_ ?_ ?_
  · refine Keyed.firstAt_eq_sumAt_of_nodup ?_
    rw [List.map_map]
    exact hnodup
  · intro stock
    rw [allocatedIn, hrows, sumIf_append, Keyed.sumAt_map]
    rfl
  · intro a ha
    rw [Table.mem_def, hrows] at ha
    rcases List.mem_append.mp ha with ha | ha
    · exact h.stock_exists a ha
    · exact hexists a ha

/-! ### Deallocating lines -/

/-- No stock gives items twice. -/
def DrawnOnce (db : Db) (infos : List OrderLineInfo) : Prop :=
  (drawnStocks (lineToAllocations db) (fun _ => 0) infos).Nodup

/-- What is taken for some lines. -/
def takenBy (db : Db) (infos : List OrderLineInfo) : List ((ℕ × ℕ) × ℤ) :=
  (deallocateLines (lineToAllocations db) (quantityOf db) infos).1

/-- What is taken from an allocation. -/
theorem sumAt_takenBy (infos : List OrderLineInfo) {a : Allocation} (ha : a ∈ db.allocations) :
    Keyed.sumAt (HasPk.pk a) (takenBy db infos)
      = Greedy.share itemsIn (askedFor infos a.orderLine) a
        (lineToAllocations db a.orderLine) := by
  have hamount := (deallocates_lineToAllocations db infos).amounts a.orderLine a
    (mem_lineToAllocations.mpr ⟨ha, rfl⟩)
  rw [share_zero, sub_zero, zero_add] at hamount
  exact hamount

theorem sumAt_takenBy_le (infos : List OrderLineInfo) {a : Allocation} (ha : a ∈ db.allocations) :
    Keyed.sumAt (HasPk.pk a) (takenBy db infos) ≤ a.quantityAllocated := by
  have hle : Greedy.share itemsIn (askedFor infos a.orderLine) a
      (lineToAllocations db a.orderLine) ≤ max (itemsIn a) 0 := Greedy.share_le _ _ _
  rw [sumAt_takenBy infos ha]
  exact hle.trans (max_le le_rfl (Int.natCast_nonneg _))

/-- What is taken from the allocations of a stock. -/
theorem allocatedIn_deallocateStock (infos : List OrderLineInfo) (stock : ℕ) :
    allocatedIn (deallocateStock infos db).1 stock
      = allocatedIn db stock - sumIf (fun e => decide (e.1.2 = stock)) (·.2) (takenBy db infos) := by
  have hkeys : ((db.allocations.rows.filter (·.stock = stock)).map HasPk.pk).Nodup :=
    (List.filter_sublist.map HasPk.pk).nodup db.allocations.nodup
  have htaken : ((db.allocations.rows.filter (·.stock = stock)).map fun a =>
        Keyed.sumAt (HasPk.pk a) (takenBy db infos)).sum
      = sumIf (fun e => decide (e.1.2 = stock)) (·.2) (takenBy db infos) := by
    have hgroups := sum_sumIf_key (·.1) (·.2) hkeys (takenBy db infos)
    rw [List.map_map] at hgroups
    refine hgroups.trans (sumIf_congr (fun e he => decide_eq_decide.mpr ?_) fun _ _ _ => rfl)
    obtain ⟨-, line, a, ha, hpk⟩ := (deallocates_lineToAllocations db infos).entries e he
    rw [hpk]
    constructor
    · intro hmem
      obtain ⟨b, hb, heq⟩ := List.mem_map.mp hmem
      rw [← heq]
      exact of_decide_eq_true (List.mem_filter.mp hb).2
    · intro hstock
      exact List.mem_map_of_mem (List.mem_filter.mpr
        ⟨(mem_lineToAllocations.mp ha).1, decide_eq_true hstock⟩)
  calc allocatedIn (deallocateStock infos db).1 stock
      = sumIf (fun a => decide (a.stock = stock)) (fun a : Allocation =>
          (((a.quantityAllocated - Keyed.sumAt (HasPk.pk a) (takenBy db infos)).toNat : ℕ) : ℤ))
          db.allocations.rows := sumIf_map ..
    _ = sumIf (fun a => decide (a.stock = stock)) (fun a : Allocation =>
          a.quantityAllocated - Keyed.sumAt (HasPk.pk a) (takenBy db infos))
          db.allocations.rows := by
        refine sumIf_congr (fun _ _ => rfl) fun a ha _ => Int.toNat_of_nonneg ?_
        exact sub_nonneg.mpr (sumAt_takenBy_le infos ha)
    _ = allocatedIn db stock - ((db.allocations.rows.filter (·.stock = stock)).map fun a =>
          Keyed.sumAt (HasPk.pk a) (takenBy db infos)).sum := sumIf_sub ..
    _ = _ := by rw [htaken]

theorem counted_deallocateStock {infos : List OrderLineInfo} (h : Counted db)
    (honce : DrawnOnce db infos) : Counted (deallocateStock infos db).1 := by
  have hstocks : ((takenBy db infos).map (·.1.2)).Nodup :=
    (deallocates_lineToAllocations db infos).stocks.nodup_iff.mpr honce
  have hkeys : ((takenBy db infos).map (·.1)).Nodup := by
    refine List.Nodup.of_map Prod.snd ?_
    rw [List.map_map]
    exact hstocks
  refine h.of_increments rfl ?_ ?_ ?_
  · refine Keyed.firstAt_eq_sumAt_of_nodup ?_
    rw [List.map_map]
    exact hstocks
  · intro stock
    have hlast : ((takenBy db infos).filter (·.1.2 = stock)).map
          (fun e => -Keyed.lastAt e.1 (takenBy db infos))
        = ((takenBy db infos).filter (·.1.2 = stock)).map fun e => -e.2 :=
      List.map_congr_left fun e he =>
        congrArg Neg.neg (Keyed.lastAt_of_mem hkeys (List.mem_of_mem_filter he))
    rw [allocatedIn_deallocateStock]
    show _ = _ + Keyed.sumAt stock ((takenBy db infos).map fun e =>
      (e.1.2, -Keyed.lastAt e.1 (takenBy db infos)))
    rw [Keyed.sumAt_map, hlast, sumIf, sub_eq_add_neg, List.sum_neg, List.map_map]
    rfl
  · intro a ha
    obtain ⟨b, hb, rfl⟩ := List.mem_map.mp ha
    exact h.stock_exists b hb

/-! ### Taking items out of stocks -/

/-- A line that asks for less than nothing has nothing allocated, or other demands for it take
all. -/
def NothingLeft (db : Db) (infos : List OrderLineInfo) : Prop :=
  ∀ info ∈ infos, info.quantity < 0 → allocatedTo db info.line ≤ askedFor infos info.line

/-- The lines that are not deallocated have nothing allocated any more. -/
theorem zeroAllocations_deallocateStock {infos : List OrderLineInfo}
    (hnothing : NothingLeft db infos) :
    zeroAllocations (deallocateStock infos db).2 (deallocateStock infos db).1
      = (deallocateStock infos db).1 := by
  have hrows : ∀ b ∈ (deallocateStock infos db).1.allocations.rows,
      (if b.orderLine ∈ (deallocateStock infos db).2 then { b with quantityAllocated := 0 } else b)
        = b := by
    intro b hb
    obtain ⟨a, ha, rfl⟩ := List.mem_map.mp hb
    split
    · rename_i hmem
      have hle : Greedy.held itemsIn (lineToAllocations db a.orderLine)
          ≤ askedFor infos a.orderLine := by
        have hnot := (deallocates_lineToAllocations db infos).notDeallocated a.orderLine hmem
        rcases hnot with ⟨info, hinfo, hline, hneg⟩ | hle
        · rw [held_lineToAllocations, ← hline]
          exact hnothing info hinfo hneg
        · rwa [zero_add] at hle
      have hall : Keyed.sumAt (HasPk.pk a) (takenBy db infos) = a.quantityAllocated := by
        rw [sumAt_takenBy infos ha,
          Greedy.share_of_held_le (mem_lineToAllocations.mpr ⟨ha, rfl⟩) hle]
        exact max_eq_left (Int.natCast_nonneg _)
      have hzero : ((a.quantityAllocated : ℤ) - Keyed.sumAt (HasPk.pk a) (takenBy db infos)).toNat
          = 0 := by
        rw [hall, sub_self]
        rfl
      exact congrArg (fun n => ({ a with quantityAllocated := n } : Allocation)) hzero.symm
    · rfl
  have htable : (zeroAllocations (deallocateStock infos db).2
      (deallocateStock infos db).1).allocations = (deallocateStock infos db).1.allocations :=
    Table.ext ((List.map_congr_left hrows).trans (List.map_id _))
  rw [zeroAllocations] at htable ⊢
  exact congrArg (fun t => { (deallocateStock infos db).1 with allocations := t }) htable

theorem counted_decreaseStocksQuantity {stocks : List Stock} {infos : List OrderLineInfo}
    {allocated : ℕ → ℤ} {allow : Bool} (h : Counted db)
    (hok : decreaseStocksQuantity stocks infos allocated allow db = .ok db') : Counted db' := by
  rw [decreaseStocksQuantity] at hok
  split at hok
  · cases hok
  · cases hok
  · rename_i held _
    obtain rfl := Except.ok.inj hok
    exact h.of_quantity (fun s => held s.pk) rfl rfl

theorem counted_decreaseStock {infos : List OrderLineInfo} {updateStocks allow : Bool}
    (h : Counted db) (honce : DrawnOnce db infos) (hnothing : NothingLeft db infos)
    (hok : decreaseStock infos updateStocks allow db = .ok db') : Counted db' := by
  have hcounted := counted_deallocateStock h honce
  rw [← zeroAllocations_deallocateStock hnothing] at hcounted
  rw [decreaseStock] at hok
  dsimp only at hok
  split at hok
  · exact counted_decreaseStocksQuantity hcounted hok
  · obtain rfl := Except.ok.inj hok
    exact hcounted

theorem counted_decreaseAllocations {now : Time} {infos : List OrderLineInfo} (h : Counted db)
    (honce : DrawnOnce db (getOrderLinesWithTrackInventory now infos))
    (hnothing : NothingLeft db (getOrderLinesWithTrackInventory now infos))
    (hok : decreaseAllocations now infos db = .ok db') : Counted db' := by
  rw [decreaseAllocations] at hok
  split at hok
  · obtain rfl := Except.ok.inj hok
    exact h
  · exact counted_decreaseStock h honce hnothing hok

/-! ### Deallocating orders -/

/-- The batch of `deallocate_stock_for_order` and `deallocate_stock_for_orders` meets each stock
once. -/
def AllocatedOnce (ofLine : ℕ → Bool) (db : Db) : Prop :=
  ((db.allocations.rows.filter fun a => ofLine a.orderLine && decide (0 < a.quantityAllocated)).map
    (·.stock)).Nodup

instance (ofLine : ℕ → Bool) (db : Db) : Decidable (AllocatedOnce ofLine db) :=
  inferInstanceAs (Decidable (List.Nodup _))

theorem counted_deallocateAll {ofLine : ℕ → Bool} (h : Counted db)
    (honce : AllocatedOnce ofLine db) : Counted (deallocateAll ofLine db) := by
  refine h.of_increments rfl ?_ ?_ ?_
  · refine Keyed.firstAt_eq_sumAt_of_nodup ?_
    rw [List.map_map]
    exact honce
  · intro stock
    have hzeroed : allocatedIn (deallocateAll ofLine db) stock
        = sumIf (fun a => decide (a.stock = stock)) (fun a : Allocation =>
            (a.quantityAllocated : ℤ)
              - if ofLine a.orderLine && decide (0 < a.quantityAllocated) then
                  (a.quantityAllocated : ℤ) else 0) db.allocations.rows := by
      refine (sumIf_map ..).trans (sumIf_congr (fun a _ => ?_) fun a _ _ => ?_)
      · show decide ((if ofLine a.orderLine then { a with quantityAllocated := 0 } else a).stock
          = stock) = decide (a.stock = stock)
        split <;> rfl
      · show (((if ofLine a.orderLine then { a with quantityAllocated := 0 }
          else a : Allocation).quantityAllocated : ℕ) : ℤ) = _
        by_cases hline : ofLine a.orderLine
        · simp only [hline, if_true, Bool.true_and, decide_eq_true_eq]
          split <;> omega
        · simp [hline]
    rw [hzeroed, sumIf_sub, sumIf_ite, Keyed.sumAt_map, sub_eq_add_neg]
    refine congrArg (allocatedIn db stock + ·) ?_
    rw [sumIf, List.sum_neg, List.map_map]
    rfl
  · intro a ha
    obtain ⟨b, hb, rfl⟩ := List.mem_map.mp ha
    obtain ⟨s, hs, hpk⟩ := h.stock_exists b hb
    refine ⟨s, hs, hpk.trans ?_⟩
    split <;> rfl

/-! ### Replacing allocations -/

/-- The batch that takes the allocations of some lines off the counters. -/
def deletedIncrements (db : Db) (lines : List ℕ) : List (ℕ × ℤ) :=
  (db.allocations.rows.filter (·.orderLine ∈ lines)).map
    fun a => (a.stock, -(a.quantityAllocated : ℤ))

/-- Of the allocations of the lines in one stock only the first holds items. -/
def DeletedOnce (db : Db) (lines : List ℕ) : Prop :=
  ∀ stock, (Keyed.valuesAt stock (deletedIncrements db lines)).tail.sum = 0

theorem counted_deleteAllocations {lines : List ℕ} (h : Counted db)
    (honce : DeletedOnce db lines) : Counted (deleteAllocations lines db) := by
  refine h.of_increments rfl (fun stock => Keyed.firstAt_eq_sumAt_iff.mpr (honce stock)) ?_ ?_
  · intro stock
    have hsplit : allocatedIn db stock
        = sumIf (fun a => decide (a.stock = stock)) (fun a : Allocation => (a.quantityAllocated : ℤ))
            (db.allocations.rows.filter fun a => !decide (a.orderLine ∈ lines))
          + sumIf (fun a => decide (a.stock = stock))
              (fun a : Allocation => (a.quantityAllocated : ℤ))
              (db.allocations.rows.filter (·.orderLine ∈ lines)) := by
      rw [allocatedIn, ← sumIf_append]
      refine sumIf_perm _ _ ?_
      exact (List.filter_append_perm (fun a : Allocation => decide (a.orderLine ∈ lines)) _).symm.trans
        List.perm_append_comm
    have hdeleted : Keyed.sumAt stock (deletedIncrements db lines)
        = -sumIf (fun a => decide (a.stock = stock)) (fun a : Allocation => (a.quantityAllocated : ℤ))
            (db.allocations.rows.filter (·.orderLine ∈ lines)) := by
      rw [deletedIncrements, Keyed.sumAt_map, sumIf, List.sum_neg, List.map_map]
      rfl
    show _ = _ + Keyed.sumAt stock (deletedIncrements db lines)
    rw [hdeleted, hsplit, add_neg_cancel_right]
    rfl
  · intro a ha
    exact h.stock_exists a (List.mem_of_mem_filter ha)

theorem variants_increasedInfos (now : Time) (infos : List OrderLineInfo) (db : Db) :
    (getOrderLinesWithTrackInventory now (increasedInfos infos db)).map
        (fun info => info.variant.map (·.pk))
      = (getOrderLinesWithTrackInventory now infos).map fun info => info.variant.map (·.pk) := by
  rw [getOrderLinesWithTrackInventory, increasedInfos, List.filter_map, List.map_map]
  rfl

theorem counted_increaseAllocations {infos : List OrderLineInfo} {countryCode : Option String}
    {channel : Channel} {now : Time} (h : Counted db)
    (honce : DeletedOnce db (infos.map (·.line)))
    (hvariants : ((getOrderLinesWithTrackInventory now infos).map
      fun info => info.variant.map (·.pk)).Nodup)
    (hok : increaseAllocations infos countryCode channel now db = .ok db') : Counted db' := by
  rw [increaseAllocations.eq_def] at hok
  split at hok
  · cases hok
  · cases hok
  · refine counted_allocateStocks (counted_deleteAllocations h honce) ?_ hok
    show ((getOrderLinesWithTrackInventory now (increasedInfos infos db)).map
      fun info => info.variant.map (·.pk)).Nodup
    rw [variants_increasedInfos]
    exact hvariants

/-! ### Putting items into stocks -/

/-- Nothing is allocated in a stock that does not exist. -/
theorem Counted.allocatedIn_eq_zero (h : Counted db) {stock : ℕ}
    (hstock : ∀ s ∈ db.stocks, s.pk ≠ stock) : allocatedIn db stock = 0 := by
  refine sumIf_eq_zero fun a ha heq => ?_
  obtain ⟨s, hs, hpk⟩ := h.stock_exists a ha
  exact absurd (hpk.trans (of_decide_eq_true heq)) (hstock s hs)

/-- The stock that goes up is there afterwards, and the counters are as they were. -/
theorem counted_increaseOrCreateStock {warehouse variant stock : ℕ} {quantity : ℤ}
    {stocks : Table Stock} (h : Counted db)
    (hsome : increaseOrCreateStock warehouse variant quantity db = some (stock, stocks)) :
    Counted { db with stocks := stocks } ∧ ∃ s ∈ stocks, s.pk = stock := by
  rw [increaseOrCreateStock] at hsome
  split at hsome
  · rename_i s hs
    obtain ⟨rfl, rfl⟩ := Prod.mk.inj (Option.some.inj hsome)
    have hmem : s ∈ db.stocks := List.mem_of_find?_eq_some hs
    constructor
    · refine h.of_quantity (fun t => if t.pk = s.pk then t.quantity + quantity else t.quantity) ?_ rfl
      refine List.map_congr_left fun t _ => ?_
      rw [pk_stock]
      by_cases hpk : t.pk = s.pk
      · rw [if_pos hpk, if_pos hpk]
      · rw [if_neg hpk, if_neg hpk]
    · refine ⟨{ s with quantity := s.quantity + quantity }, ?_, rfl⟩
      exact List.mem_map.mpr ⟨s, hmem, if_pos rfl⟩
  · obtain ⟨t, ht, heq⟩ := Option.map_eq_some_iff.mp hsome
    obtain ⟨rfl, rfl⟩ := Prod.mk.inj heq
    obtain ⟨hrows, hfresh⟩ := Table.insert_eq_some ht
    constructor
    · constructor
      · intro s hs
        rw [Table.mem_def, hrows] at hs
        rcases List.mem_append.mp hs with hs | hs
        · exact h.counter s hs
        · obtain rfl := List.mem_singleton.mp hs
          exact (h.allocatedIn_eq_zero hfresh).symm
      · intro a ha
        obtain ⟨s, hs, hpk⟩ := h.stock_exists a ha
        refine ⟨s, ?_, hpk⟩
        rw [Table.mem_def, hrows]
        exact List.mem_append_left _ hs
    · have hmem := List.mem_append_right db.stocks.rows (List.mem_singleton_self
        ({ pk := nextStockPk db, warehouse := warehouse, productVariant := variant,
           quantity := quantity } : Stock))
      rw [← hrows] at hmem
      exact ⟨_, hmem, rfl⟩

/-- What the allocations of a stock hold after one of them goes up. -/
theorem increaseOrCreateAllocation_eq_some {allocations : Table Allocation} {line stock : ℕ}
    {quantity : ℤ} (h : increaseOrCreateAllocation line stock quantity db.allocations
      = some allocations) :
    (∀ k, allocatedIn { db with allocations := allocations } k
      = allocatedIn db k + if k = stock then quantity else 0) ∧
    ∀ a ∈ allocations, (∃ b ∈ db.allocations, b.stock = a.stock) ∨ a.stock = stock := by
  rw [increaseOrCreateAllocation] at h
  split at h
  · rename_i a ha
    obtain ⟨hmem, hpk⟩ := Table.find?_eq_some.mp ha
    split at h
    · rename_i hnonneg
      obtain rfl := Option.some.inj h
      constructor
      · intro k
        have hstock : a.stock = stock := congrArg Prod.snd hpk
        have hsum := Table.sum_modify db.allocations hmem
          (fun b => { b with quantityAllocated := (b.quantityAllocated + quantity).toNat })
          (fun _ => rfl) fun b : Allocation => if b.stock = k then (b.quantityAllocated : ℤ) else 0
        rw [sum_map_ite (fun b : Allocation => (b.quantityAllocated : ℤ)) fun b => b.stock = k,
          sum_map_ite (fun b : Allocation => (b.quantityAllocated : ℤ)) fun b => b.stock = k,
          hpk] at hsum
        refine hsum.trans (congrArg (allocatedIn db k + ·) ?_)
        show (if a.stock = k then (((a.quantityAllocated + quantity).toNat : ℕ) : ℤ) else 0)
          - (if a.stock = k then (a.quantityAllocated : ℤ) else 0) = if k = stock then quantity else 0
        rw [hstock, Int.toNat_of_nonneg hnonneg]
        by_cases hk : stock = k
        · rw [if_pos hk, if_pos hk, if_pos hk.symm]
          omega
        · rw [if_neg hk, if_neg hk, if_neg (Ne.symm hk), sub_self]
      · intro b hb
        obtain ⟨c, hc, rfl⟩ := List.mem_map.mp hb
        refine .inl ⟨c, hc, ?_⟩
        split <;> rfl
    · cases h
  · split at h
    · rename_i hnonneg
      obtain ⟨hrows, -⟩ := Table.insert_eq_some h
      constructor
      · intro k
        rw [allocatedIn, hrows, sumIf_append, sumIf_cons, sumIf_nil, add_zero,
          Int.toNat_of_nonneg hnonneg]
        refine congrArg (allocatedIn db k + ·) ?_
        by_cases hk : stock = k
        · rw [if_pos (decide_eq_true hk), if_pos hk.symm]
        · rw [if_neg fun heq => hk (of_decide_eq_true heq), if_neg (Ne.symm hk)]
      · intro b hb
        rw [Table.mem_def, hrows] at hb
        rcases List.mem_append.mp hb with hb | hb
        · exact .inl ⟨b, hb, rfl⟩
        · obtain rfl := List.mem_singleton.mp hb
          exact .inr rfl
    · cases h

theorem counted_increaseStock {line : ℕ} {variant : Option ℕ} {warehouse : ℕ} {quantity : ℤ}
    {allocate : Bool} (h : Counted db)
    (hok : increaseStock line variant warehouse quantity allocate db = .ok db') : Counted db' := by
  rw [increaseStock.eq_def] at hok
  split at hok
  · cases hok
  split at hok
  · cases hok
  rename_i stock stocks hstock
  obtain ⟨hcounted, t, ht, hpk⟩ := counted_increaseOrCreateStock h hstock
  split at hok
  · split at hok
    · cases hok
    rename_i allocations hallocations
    obtain rfl := Except.ok.inj hok
    obtain ⟨hallocated, hmem⟩ := increaseOrCreateAllocation_eq_some hallocations
    constructor
    · intro s hs
      obtain ⟨u, hu, rfl⟩ := List.mem_map.mp hs
      have hu' : u.quantityAllocated = allocatedIn db u.pk := hcounted.counter u hu
      rw [pk_stock]
      by_cases hkey : u.pk = stock
      · rw [if_pos hkey]
        show u.quantityAllocated + quantity
          = allocatedIn { db with allocations := allocations } u.pk
        rw [hallocated, if_pos hkey, hu']
      · rw [if_neg hkey]
        show u.quantityAllocated = allocatedIn { db with allocations := allocations } u.pk
        rw [hallocated, if_neg hkey, hu', add_zero]
    · intro a ha
      have hexists : ∃ s ∈ stocks, s.pk = a.stock := by
        rcases hmem a ha with ⟨b, hb, heq⟩ | heq
        · obtain ⟨s, hs, hs'⟩ := hcounted.stock_exists b hb
          exact ⟨s, hs, hs'.trans heq⟩
        · exact ⟨t, ht, hpk.trans heq.symm⟩
      obtain ⟨s, hs, hs'⟩ := hexists
      refine ⟨_, List.mem_map_of_mem hs, ?_⟩
      split <;> exact hs'
  · obtain rfl := Except.ok.inj hok
    exact hcounted

/-! ### Ending a preorder -/

/-- The stock a preorder allocation goes to, if it exists. -/
def existingStockFor (db : Db) (variant : ℕ) (a : PreorderAllocation) : Option ℕ :=
  ((warehouseForPreorderAllocation db a.orderLine).bind fun w => findStock db w.pk variant).map
    (·.pk)

/-- The batch of `deactivate_preorder_for_variant`. -/
def preorderIncrements (db : Db) (variant : ℕ) (allocations : List PreorderAllocation) :
    List (ℕ × ℤ) :=
  allocations.filterMap fun a =>
    (existingStockFor db variant a).map fun stock => (stock, (a.quantity : ℤ))

/-- Of the preorder allocations that go to one existing stock only the first holds items. -/
def PreordersOnce (db : Db) (variant : ProductVariant) : Prop :=
  variant.isPreorder → ∀ stock, (Keyed.valuesAt stock
    (preorderIncrements db variant.pk (preorderAllocationsOf db variant.pk))).tail.sum = 0

/-- What an allocation of a preorder is given: an existing stock, or a new one that counts it. -/
def GivenStock (db : Db) (f : PreorderAllocation × ℕ × Option Stock) : Prop :=
  match f.2.2 with
  | none => ∃ s ∈ db.stocks, s.pk = f.2.1
  | some s => s.pk = f.2.1 ∧ s.quantityAllocated = f.1.quantity

/-- What the loop over the allocations of a preorder finds. -/
theorem stocksForPreorderAllocations_eq_ok {variant next : ℕ} {l : List PreorderAllocation}
    {found : List (PreorderAllocation × ℕ × Option Stock)}
    (h : stocksForPreorderAllocations db variant next l = .ok found) :
    (∀ f ∈ found, GivenStock db f) ∧
    ((found.filter (·.2.2 = none)).map fun f => (f.2.1, (f.1.quantity : ℤ)))
      = preorderIncrements db variant l := by
  induction l generalizing next found with
  | nil =>
    obtain rfl := Except.ok.inj h
    exact ⟨nofun, rfl⟩
  | cons a l ih =>
    rw [stocksForPreorderAllocations] at h
    split at h
    · cases h
    rename_i warehouse hwarehouse
    rw [preorderIncrements, List.filterMap_cons, existingStockFor, hwarehouse, Option.bind_some]
    split at h
    · rename_i s hs
      obtain ⟨rest, hrest, rfl⟩ := exists_of_map_eq_ok h
      obtain ⟨hgiven, hincrements⟩ := ih hrest
      constructor
      · exact List.forall_mem_cons.mpr ⟨⟨s, List.mem_of_find?_eq_some hs, rfl⟩, hgiven⟩
      · rw [hs]
        exact congrArg (List.cons _) hincrements
    · rename_i hs
      obtain ⟨rest, hrest, rfl⟩ := exists_of_map_eq_ok h
      obtain ⟨hgiven, hincrements⟩ := ih hrest
      constructor
      · exact List.forall_mem_cons.mpr ⟨⟨rfl, rfl⟩, hgiven⟩
      · rw [hs]
        exact hincrements

/-- What a stock is given: from the batch, and from its own row if it is new. -/
theorem sumIf_given {found : List (PreorderAllocation × ℕ × Option Stock)}
    (h : ∀ f ∈ found, GivenStock db f) (stock : ℕ) :
    sumIf (fun f => decide (f.2.1 = stock)) (fun f => (f.1.quantity : ℤ)) found
      = Keyed.sumAt stock
          ((found.filter (·.2.2 = none)).map fun f => (f.2.1, (f.1.quantity : ℤ)))
        + sumIf (fun s => decide (s.pk = stock)) (fun s : Stock => s.quantityAllocated)
          (found.filterMap (·.2.2)) := by
  induction found with
  | nil => rfl
  | cons f found ih =>
    obtain ⟨hf, hfound⟩ := List.forall_mem_cons.mp h
    rw [sumIf_cons, ih hfound]
    obtain ⟨a, pk, new⟩ := f
    cases new with
    | none =>
      simp only [List.filter_cons, List.filterMap_cons, decide_true, if_true, List.map_cons,
        Keyed.sumAt_cons, decide_eq_true_eq]
      exact (add_assoc _ _ _).symm
    | some s =>
      obtain ⟨hpk, hquantity⟩ : s.pk = pk ∧ s.quantityAllocated = a.quantity := hf
      simp only [List.filter_cons, List.filterMap_cons, reduceCtorEq, decide_false,
        Bool.false_eq_true, if_false, sumIf_cons, hpk, hquantity]
      exact add_left_comm _ _ _

theorem counted_deactivatePreorderForVariant {variant : ProductVariant} (h : Counted db)
    (honce : PreordersOnce db variant)
    (hok : deactivatePreorderForVariant variant db = .ok db') : Counted db' := by
  rw [deactivatePreorderForVariant] at hok
  split at hok
  · obtain rfl := Except.ok.inj hok
    exact h
  rename_i hpreorder
  have honce := honce (by simpa using hpreorder)
  dsimp only at hok
  split at hok
  · cases hok
  rename_i found hfound
  split at hok
  · cases hok
  rename_i stocks hstocks
  split at hok
  · cases hok
  rename_i allocations hallocations
  obtain rfl := Except.ok.inj hok
  obtain ⟨hgiven, hincrements⟩ := stocksForPreorderAllocations_eq_ok hfound
  have hrows : stocks.rows = db.stocks.rows ++ found.filterMap (·.2.2) := by
    rw [bulkCreateStocks] at hstocks
    split at hstocks
    · exact Table.insertAll_eq_some.mp hstocks
    · cases hstocks
  have hallocrows := Table.insertAll_eq_some.mp hallocations
  have hpks : ((db.stocks.rows ++ found.filterMap (·.2.2)).map Stock.pk).Nodup := by
    rw [← hrows]
    exact stocks.nodup
  rw [List.map_append] at hpks
  obtain ⟨-, hnew, hdisjoint⟩ := List.nodup_append.mp hpks
  constructor
  · intro s hs
    obtain ⟨t, ht, rfl⟩ := mem_addToQuantityAllocated.mp hs
    have hfirst : Keyed.firstAt t.pk
          ((found.filter (·.2.2 = none)).map fun f => (f.2.1, (f.1.quantity : ℤ)))
        = Keyed.sumAt t.pk
          ((found.filter (·.2.2 = none)).map fun f => (f.2.1, (f.1.quantity : ℤ))) := by
      rw [hincrements]
      exact Keyed.firstAt_eq_sumAt_iff.mpr (honce t.pk)
    have hcount : t.quantityAllocated = allocatedIn db t.pk
        + sumIf (fun s => decide (s.pk = t.pk)) (fun s : Stock => s.quantityAllocated)
          (found.filterMap (·.2.2)) := by
      rw [Table.mem_def, hrows] at ht
      rcases List.mem_append.mp ht with hold | hadded
      · -- the row of an old stock is not among the new ones
        have hnone : sumIf (fun s => decide (s.pk = t.pk)) (fun s : Stock => s.quantityAllocated)
            (found.filterMap (·.2.2)) = 0 := by
          refine sumIf_eq_zero fun s hs heq => absurd (of_decide_eq_true heq).symm ?_
          exact hdisjoint _ (List.mem_map_of_mem hold) _ (List.mem_map_of_mem hs)
        rw [hnone, add_zero]
        exact h.counter t hold
      · have hzero : allocatedIn db t.pk = 0 := h.allocatedIn_eq_zero fun s hs =>
          hdisjoint _ (List.mem_map_of_mem hs) _ (List.mem_map_of_mem hadded)
        rw [hzero, zero_add]
        refine (sumIf_eq_single (List.Nodup.of_map _ hnew) hadded fun s hs => ?_).symm
        rw [decide_eq_true_iff]
        exact ⟨fun heq => List.inj_on_of_nodup_map hnew hs hadded heq, fun heq => by rw [heq]⟩
    show t.quantityAllocated + Keyed.firstAt t.pk _
      = sumIf (fun a => decide (a.stock = t.pk)) (fun a : Allocation => (a.quantityAllocated : ℤ))
        allocations.rows
    rw [hallocrows, sumIf_append, sumIf_map, hfirst, hcount]
    have hsum := sumIf_given hgiven t.pk
    refine (add_assoc _ _ _).trans (congrArg (allocatedIn db t.pk + ·) ?_)
    exact (add_comm _ _).trans hsum.symm
  · intro a ha
    have hexists : ∃ s ∈ stocks, s.pk = a.stock := by
      have ha : a ∈ allocations.rows := ha
      rw [hallocrows] at ha
      rcases List.mem_append.mp ha with hold | hadded
      · obtain ⟨s, hs, hpk⟩ := h.stock_exists a hold
        refine ⟨s, ?_, hpk⟩
        rw [Table.mem_def, hrows]
        exact List.mem_append_left _ hs
      · obtain ⟨f, hf, rfl⟩ := List.mem_map.mp hadded
        have hstock := hgiven f hf
        rw [GivenStock] at hstock
        split at hstock
        · obtain ⟨s, hs, hpk⟩ := hstock
          refine ⟨s, ?_, hpk⟩
          rw [Table.mem_def, hrows]
          exact List.mem_append_left _ hs
        · rename_i s hs
          refine ⟨s, ?_, hstock.1⟩
          rw [Table.mem_def, hrows]
          exact List.mem_append_right _ (List.mem_filterMap.mpr ⟨f, hf, hs⟩)
    obtain ⟨s, hs, hpk⟩ := hexists
    exact ⟨_, mem_addToQuantityAllocated.mpr ⟨s, hs, rfl⟩, hpk⟩

end Stocks

end Aixinwu
