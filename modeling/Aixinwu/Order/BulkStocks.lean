import Aixinwu.Order.BulkCreate
import Mathlib.Algebra.BigOperators.Group.List.Basic
import Mathlib.Tactic.Ring

/-!
# Orders and stocks in the bulk import

What `handle_stocks` does with one order: it can be taken from the stocks or not (`CanTake`), and if it
can the stocks are what they were less what is taken and fulfilled (`take`). Otherwise the order has a
critical error, and the stocks stay.

## Main definitions

* `CanTake`, `take`

## Main results

* `handleLines_of_canTake`, `handleLines_of_not_canTake`
-/

namespace Aixinwu

namespace BulkCreate

/-! ### What is taken -/

/-- The quantities of lines that are for a stock. -/
def ordered (key : ℕ × ℕ) (lines : List OrderBulkOrderLine) : ℤ :=
  (lines.map fun line => if line.key = some key then (line.quantity : ℤ) else 0).sum

/-- What has been fulfilled of lines that are for a stock, given what has been fulfilled of each, from
the line with an index on. -/
def fulfilled (f : ℕ → ℤ) (key : ℕ × ℕ) : List OrderBulkOrderLine → ℕ → ℤ
  | [], _ => 0
  | line :: lines, index =>
    (if line.key = some key then f index else 0) + fulfilled f key lines (index + 1)

/-- The stocks after lines. -/
def take (f : ℕ → ℤ) (lines : List OrderBulkOrderLine) (index : ℕ) (stocks : StockMap) : StockMap :=
  fun key => (stocks key).map fun stock =>
    ⟨stock.quantity - fulfilled f key lines index,
      stock.quantityAllocated + (ordered key lines - fulfilled f key lines index)⟩

/-- No more of the lines has been fulfilled than was ordered. -/
def Fillable (f : ℕ → ℤ) : List OrderBulkOrderLine → ℕ → Prop
  | [], _ => True
  | line :: lines, index => f index ≤ line.quantity ∧ Fillable f lines (index + 1)

/-- The lines can be taken from the stocks. -/
structure CanTake (policy : StockUpdatePolicy) (f : ℕ → ℤ) (stocks : StockMap)
    (lines : List OrderBulkOrderLine) (index : ℕ) : Prop where
  fillable : Fillable f lines index
  stocked : ∀ line ∈ lines, ∃ key stock, line.key = some key ∧ stocks key = some stock
  enough : policy ≠ .force → ∀ line ∈ lines, ∀ key stock, line.key = some key →
    stocks key = some stock → ordered key lines ≤ stock.available

section Lines

variable {policy : StockUpdatePolicy} {f : ℕ → ℤ} {stocks : StockMap} {line : OrderBulkOrderLine}
  {lines : List OrderBulkOrderLine} {index : ℕ} {key : ℕ × ℕ} {stock : Stock}

theorem ordered_cons (key : ℕ × ℕ) (line : OrderBulkOrderLine) (lines : List OrderBulkOrderLine) :
    ordered key (line :: lines)
      = (if line.key = some key then (line.quantity : ℤ) else 0) + ordered key lines := by
  rw [ordered, List.map_cons, List.sum_cons]
  rfl

theorem ordered_nonneg (key : ℕ × ℕ) (lines : List OrderBulkOrderLine) : 0 ≤ ordered key lines := by
  induction lines with
  | nil => exact Int.le_refl 0
  | cons line lines ih =>
    rw [ordered_cons]
    split <;> omega

theorem ordered_of_forall_ne (h : ∀ line ∈ lines, line.key ≠ some key) : ordered key lines = 0 := by
  induction lines with
  | nil => rfl
  | cons line lines ih =>
    rw [List.forall_mem_cons] at h
    rw [ordered_cons, if_neg h.1, ih h.2, zero_add]

theorem takeLine_self (quantity : ℕ) (filled : ℤ) :
    stocks.takeLine key stock quantity filled key
      = some ⟨stock.quantity - filled, stock.quantityAllocated + (quantity - filled)⟩ :=
  Function.update_self ..

theorem takeLine_of_ne {key' : ℕ × ℕ} (h : key' ≠ key) (quantity : ℕ) (filled : ℤ) :
    stocks.takeLine key stock quantity filled key' = stocks key' :=
  Function.update_of_ne h ..

theorem take_nil : take f [] index stocks = stocks := by
  funext key
  rw [take]
  cases stocks key with
  | none => rfl
  | some stock => simp [fulfilled, ordered]

/-- A line is taken, and then the others. -/
theorem take_cons (hkey : line.key = some key) (hstock : stocks key = some stock) :
    take f (line :: lines) index stocks
      = take f lines (index + 1) (stocks.takeLine key stock line.quantity (f index)) := by
  funext key'
  rw [take, take, fulfilled, ordered_cons]
  by_cases h : key' = key
  · subst h
    rw [takeLine_self, hstock, if_pos hkey, if_pos hkey, Option.map_some, Option.map_some]
    congr 1
    rw [Stock.mk.injEq]
    dsimp only
    constructor <;> omega
  · have hne : ¬ line.key = some key' := by
      rw [hkey, Option.some_inj]
      exact Ne.symm h
    rw [takeLine_of_ne h, if_neg hne, if_neg hne, zero_add, zero_add]

/-- The lines can be taken one by one. -/
theorem canTake_cons (hkey : line.key = some key) (hstock : stocks key = some stock) :
    CanTake policy f stocks (line :: lines) index ↔
      f index ≤ line.quantity ∧ (policy ≠ .force → line.quantity ≤ stock.available) ∧
        CanTake policy f (stocks.takeLine key stock line.quantity (f index)) lines (index + 1) := by
  have hnonneg := ordered_nonneg key lines
  constructor
  · rintro ⟨hfillable, hstocked, henough⟩
    refine ⟨hfillable.1, fun hpolicy => ?_, hfillable.2, fun line' hline' => ?_,
      fun hpolicy line' hline' key' stock' hkey' hstock' => ?_⟩
    · have hle := henough hpolicy line List.mem_cons_self key stock hkey hstock
      rw [ordered_cons, if_pos hkey] at hle
      omega
    · obtain ⟨key', stock', hkey', hstock'⟩ := hstocked line' (List.mem_cons_of_mem line hline')
      by_cases h : key' = key
      · subst h
        exact ⟨key', _, hkey', takeLine_self _ _⟩
      · exact ⟨key', stock', hkey', (takeLine_of_ne h _ _).trans hstock'⟩
    · have henough' := henough hpolicy line' (List.mem_cons_of_mem line hline') key'
      by_cases h : key' = key
      · subst h
        rw [takeLine_self, Option.some_inj] at hstock'
        have hle := henough' stock hkey' hstock
        rw [ordered_cons, if_pos hkey] at hle
        rw [← hstock']
        simp only [Stock.available] at hle ⊢
        omega
      · rw [takeLine_of_ne h] at hstock'
        have hle := henough' stock' hkey' hstock'
        rw [ordered_cons, if_neg (by rw [hkey, Option.some_inj]; exact Ne.symm h)] at hle
        omega
  · rintro ⟨hfilled, hline, hfillable, hstocked, henough⟩
    refine ⟨⟨hfilled, hfillable⟩, List.forall_mem_cons.mpr ⟨⟨key, stock, hkey, hstock⟩,
      fun line' hline' => ?_⟩, fun hpolicy line' hline' key' stock' hkey' hstock' => ?_⟩
    · obtain ⟨key', stock', hkey', hstock'⟩ := hstocked line' hline'
      by_cases h : key' = key
      · subst h
        exact ⟨key', stock, hkey', hstock⟩
      · exact ⟨key', stock', hkey', (takeLine_of_ne h _ _).symm.trans hstock'⟩
    · by_cases h : key' = key
      · subst h
        obtain rfl := Option.some_inj.mp (hstock.symm.trans hstock')
        rw [ordered_cons, if_pos hkey]
        by_cases hmore : ∃ line' ∈ lines, line'.key = some key'
        · obtain ⟨line'', hline'', hkey''⟩ := hmore
          have hle := henough hpolicy line'' hline'' key' _ hkey'' (takeLine_self _ _)
          simp only [Stock.available] at hle ⊢
          omega
        · have hle := hline hpolicy
          rw [ordered_of_forall_ne fun line'' hline'' hkey'' => hmore ⟨line'', hline'', hkey''⟩]
          omega
      · have hne : ¬ line.key = some key' := by
          rw [hkey, Option.some_inj]
          exact Ne.symm h
        rcases List.mem_cons.mp hline' with rfl | hline'
        · exact absurd hkey' hne
        · have hle := henough hpolicy line' hline' key' stock' hkey'
            ((takeLine_of_ne h _ _).trans hstock')
          rw [ordered_cons, if_neg hne]
          omega

theorem canTake_nil : CanTake policy f stocks [] index :=
  ⟨trivial, fun _ hline => (List.not_mem_nil hline).elim,
    fun _ _ hline => (List.not_mem_nil hline).elim⟩

/-- **Lines that can be taken** are taken, and no error is found. -/
theorem handleLines_of_canTake {d : OrderBulkCreateData}
    (h : CanTake policy d.quantityFulfilled stocks lines index) :
    handleLines policy lines index stocks d
      = (take d.quantityFulfilled lines index stocks, d) := by
  induction lines generalizing index stocks with
  | nil => rw [handleLines, take_nil]
  | cons line lines ih =>
    obtain ⟨key, stock, hkey, hstock⟩ := h.stocked line List.mem_cons_self
    have hget : stocks.get line = some stock := by
      rw [StockMap.get, hkey]
      exact hstock
    obtain ⟨hfilled, hline, hrest⟩ := (canTake_cons hkey hstock).mp h
    have henough : ¬ (stock.available < line.quantity ∧ policy ≠ .force) := fun hshort => by
      have hle := hline hshort.2
      omega
    rw [handleLines]
    dsimp only
    rw [if_neg (by omega), hkey, hget]
    dsimp only
    rw [if_neg henough, ih hrest, take_cons hkey hstock]

/-- Errors that disqualify an order have been added. -/
def Disqualified (d d' : OrderBulkCreateData) : Prop :=
  ∃ errors, errors ≠ [] ∧ d' = { d with errors := d.errors ++ errors, isCriticalError := true }

theorem disqualified_addCritical (d : OrderBulkCreateData) (e : OrderBulkError) :
    Disqualified d (d.addCritical e) :=
  ⟨[e], List.cons_ne_nil e [], rfl⟩

theorem Disqualified.trans {d d' d'' : OrderBulkCreateData} (h : Disqualified d d')
    (h' : Disqualified d' d'') : Disqualified d d'' := by
  obtain ⟨errors, hne, rfl⟩ := h
  obtain ⟨errors', -, rfl⟩ := h'
  refine ⟨errors ++ errors', List.append_ne_nil_of_left_ne_nil hne errors', ?_⟩
  rw [← List.append_assoc]

/-- **Lines that cannot be taken** disqualify the order. -/
theorem handleLines_of_not_canTake {d : OrderBulkCreateData}
    (h : ¬ CanTake policy d.quantityFulfilled stocks lines index) :
    Disqualified d (handleLines policy lines index stocks d).2 := by
  induction lines generalizing index stocks d with
  | nil => exact absurd canTake_nil h
  | cons line lines ih =>
    rw [handleLines]
    dsimp only
    split
    · exact disqualified_addCritical d _
    · rename_i hfilled
      split
      · rename_i key stock hkey hget
        have hstock : stocks key = some stock := by
          rwa [StockMap.get, hkey] at hget
        rw [canTake_cons hkey hstock] at h
        split
        · -- the walk goes on, but the order is disqualified already
          rename_i hshort
          have hcritical := disqualified_addCritical d
            ⟨s!"Insufficient stock for product variant: {line.variantId} and " ++
              s!"warehouse: {line.warehouse}.", some s!"lines.{index}", .insufficientStock⟩
          by_cases hrest : CanTake policy d.quantityFulfilled
              (stocks.takeLine key stock line.quantity (d.quantityFulfilled index)) lines (index + 1)
          · rw [handleLines_of_canTake (by exact hrest)]
            exact hcritical
          · exact hcritical.trans (ih (by exact hrest))
        · rename_i henough
          refine ih fun hrest => h ⟨by omega, fun hpolicy => ?_, hrest⟩
          by_contra hshort
          exact henough ⟨by omega, hpolicy⟩
      · exact disqualified_addCritical d _

end Lines

/-! ### Orders -/

namespace OrderBulkCreateData

/-- The quantities of an order that are for a stock. -/
def orderedAt (d : OrderBulkCreateData) (key : ℕ × ℕ) : ℤ := ordered key d.lines

/-- What has been fulfilled of an order from a stock. -/
def fulfilledAt (d : OrderBulkCreateData) (key : ℕ × ℕ) : ℤ :=
  fulfilled d.quantityFulfilled key d.lines 0

/-- The order can be taken from the stocks. -/
def CanBeTaken (d : OrderBulkCreateData) (policy : StockUpdatePolicy) (stocks : StockMap) : Prop :=
  CanTake policy d.quantityFulfilled stocks d.lines 0

/-- The stocks after an order. -/
def takenFrom (d : OrderBulkCreateData) (stocks : StockMap) : StockMap :=
  take d.quantityFulfilled d.lines 0 stocks

end OrderBulkCreateData

section Orders

variable {policy : StockUpdatePolicy} {stocks : StockMap} {d : OrderBulkCreateData}
  {ds : List OrderBulkCreateData} {key : ℕ × ℕ}

theorem takenFrom_apply (stocks : StockMap) (d : OrderBulkCreateData) (key : ℕ × ℕ) :
    d.takenFrom stocks key = (stocks key).map fun stock =>
      ⟨stock.quantity - d.fulfilledAt key,
        stock.quantityAllocated + (d.orderedAt key - d.fulfilledAt key)⟩ :=
  rfl

theorem orderedAt_nonneg (d : OrderBulkCreateData) (key : ℕ × ℕ) : 0 ≤ d.orderedAt key :=
  ordered_nonneg key d.lines

theorem handleOrder_of_canBeTaken (h : d.CanBeTaken policy stocks) :
    handleOrder policy stocks d = (d.takenFrom stocks, d) :=
  handleLines_of_canTake h

theorem handleOrder_of_not_canBeTaken (h : ¬ d.CanBeTaken policy stocks) :
    Disqualified d (handleOrder policy stocks d).2 :=
  handleLines_of_not_canTake h

/-- What handling the stocks does to an order. -/
def Handled (d d' : OrderBulkCreateData) : Prop := d' = d ∨ Disqualified d d'

theorem handled_handleOrder (policy : StockUpdatePolicy) (stocks : StockMap)
    (d : OrderBulkCreateData) : Handled d (handleOrder policy stocks d).2 := by
  by_cases h : d.CanBeTaken policy stocks
  · left
    rw [handleOrder_of_canBeTaken h]
  · exact Or.inr (handleOrder_of_not_canBeTaken h)

/-- An order that is kept could be taken. -/
theorem handleOrder_of_kept (h : (handleOrder policy stocks d).2.isCriticalError = false) :
    d.CanBeTaken policy stocks ∧ d.isCriticalError = false ∧
      handleOrder policy stocks d = (d.takenFrom stocks, d) := by
  by_cases hcan : d.CanBeTaken policy stocks
  · rw [handleOrder_of_canBeTaken hcan] at h
    exact ⟨hcan, h, handleOrder_of_canBeTaken hcan⟩
  · obtain ⟨errors, -, heq⟩ := handleOrder_of_not_canBeTaken hcan
    rw [heq] at h
    cases h

/-- The orders one after the other, on stocks that are given. -/
def handleOrders (policy : StockUpdatePolicy) (stocks : StockMap) (ds : List OrderBulkCreateData) :
    StockMap × List OrderBulkCreateData :=
  Tentative.attempts (handleOrder policy) (fun d => !d.isCriticalError) stocks ds

theorem handleStocks_eq (stocks : StockMap) (policy : StockUpdatePolicy)
    (ds : List OrderBulkCreateData) :
    handleStocks stocks policy ds = handleOrders policy (queryStocks stocks ds) ds :=
  rfl

theorem exists_of_mem_handleOrders (h : d ∈ (handleOrders policy stocks ds).2) :
    ∃ p ∈ ds, Handled p d :=
  Tentative.exists_of_mem_attempts (fun stocks d _ => handled_handleOrder policy stocks d) h

/-- The stocks after orders. -/
theorem foldl_takenFrom (ds : List OrderBulkCreateData) (stocks : StockMap) (key : ℕ × ℕ) :
    ds.foldl (fun stocks d => d.takenFrom stocks) stocks key = (stocks key).map fun stock =>
      ⟨stock.quantity - (ds.map fun d => d.fulfilledAt key).sum,
        stock.quantityAllocated + ((ds.map fun d => d.orderedAt key).sum -
          (ds.map fun d => d.fulfilledAt key).sum)⟩ := by
  induction ds generalizing stocks with
  | nil =>
    rw [List.foldl_nil]
    cases stocks key with
    | none => rfl
    | some stock => simp
  | cons d ds ih =>
    rw [List.foldl_cons, ih, takenFrom_apply, Option.map_map]
    congr 1
    funext stock
    simp only [Function.comp, List.map_cons, List.sum_cons, Stock.mk.injEq]
    constructor <;> omega

/-- The stocks that are left are those after the orders that are kept. -/
theorem fst_handleOrders (policy : StockUpdatePolicy) (stocks : StockMap)
    (ds : List OrderBulkCreateData) :
    (handleOrders policy stocks ds).1
      = ((handleOrders policy stocks ds).2.filter fun d => !d.isCriticalError).foldl
        (fun stocks d => d.takenFrom stocks) stocks :=
  Tentative.fst_attempts fun stocks d _ hkept => by
    rw [(handleOrder_of_kept ((Bool.not_eq_true' _).mp hkept)).2.2]

end Orders

/-! ### The stocks that are asked for -/

/-- Some of the stocks. -/
def restrict (asked : ℕ × ℕ → Prop) [DecidablePred asked] (stocks : StockMap) : StockMap :=
  fun key => if asked key then stocks key else none

section Restrict

variable {policy : StockUpdatePolicy} {stocks : StockMap} {d : OrderBulkCreateData}
  {ds : List OrderBulkCreateData} {lines : List OrderBulkOrderLine} {asked : ℕ × ℕ → Prop}
  [DecidablePred asked]

theorem restrict_of_asked {key : ℕ × ℕ} (h : asked key) : restrict asked stocks key = stocks key :=
  if_pos h

theorem restrict_takeLine {key : ℕ × ℕ} (h : asked key) (stock : Stock) (quantity : ℕ)
    (filled : ℤ) :
    (restrict asked stocks).takeLine key stock quantity filled
      = restrict asked (stocks.takeLine key stock quantity filled) := by
  funext key'
  by_cases hkey : key' = key
  · subst hkey
    rw [takeLine_self, restrict_of_asked h, takeLine_self]
  · rw [takeLine_of_ne hkey, restrict, restrict, takeLine_of_ne hkey]

/-- Lines whose stocks are asked for are handled as if all were. -/
theorem handleLines_restrict
    (h : ∀ line ∈ lines, ∀ key, line.key = some key → asked key) (index : ℕ) :
    handleLines policy lines index (restrict asked stocks) d
      = (restrict asked (handleLines policy lines index stocks d).1,
        (handleLines policy lines index stocks d).2) := by
  induction lines generalizing index stocks d with
  | nil => rfl
  | cons line lines ih =>
    rw [List.forall_mem_cons] at h
    have hget : (restrict asked stocks).get line = stocks.get line := by
      rw [StockMap.get, StockMap.get]
      cases hkey : line.key with
      | none => rfl
      | some key => exact restrict_of_asked (h.1 key hkey)
    rw [handleLines, handleLines, hget]
    dsimp only
    split
    · rfl
    · split
      · rename_i key stock hkey _
        rw [restrict_takeLine (h.1 key hkey), ih h.2]
      · rfl

theorem handleOrders_restrict
    (h : ∀ d ∈ ds, ∀ line ∈ d.lines, ∀ key, line.key = some key → asked key) :
    handleOrders policy (restrict asked stocks) ds
      = (restrict asked (handleOrders policy stocks ds).1, (handleOrders policy stocks ds).2) :=
  Tentative.attempts_sim fun _ d hd => handleLines_restrict (h d hd) 0

/-- The keys that `handle_stocks` asks for. -/
def Asked (ds : List OrderBulkCreateData) (key : ℕ × ℕ) : Prop :=
  let lines := (ds.filter fun d => d.order.isSome).flatMap OrderBulkCreateData.lines
  key.1 ∈ lines.filterMap OrderBulkOrderLine.variant ∧
    key.2 ∈ lines.map OrderBulkOrderLine.warehouse

instance (ds : List OrderBulkCreateData) : DecidablePred (Asked ds) :=
  fun _ => inferInstanceAs (Decidable (_ ∧ _))

theorem queryStocks_eq (stocks : StockMap) (ds : List OrderBulkCreateData) :
    queryStocks stocks ds = restrict (Asked ds) stocks :=
  rfl

/-- The stocks of the orders that are there are asked for. -/
theorem asked_of_mem (hd : d ∈ ds) (horder : d.order.isSome = true) {line : OrderBulkOrderLine}
    (hline : line ∈ d.lines) {key : ℕ × ℕ} (hkey : line.key = some key) : Asked ds key := by
  have hmem : line ∈ (ds.filter fun d => d.order.isSome).flatMap OrderBulkCreateData.lines :=
    List.mem_flatMap.mpr ⟨d, List.mem_filter.mpr ⟨hd, horder⟩, hline⟩
  obtain ⟨variant, hvariant, rfl⟩ := Option.map_eq_some_iff.mp hkey
  exact ⟨List.mem_filterMap.mpr ⟨line, hmem, hvariant⟩, List.mem_map.mpr ⟨line, hmem, rfl⟩⟩

end Restrict

end BulkCreate

end Aixinwu
