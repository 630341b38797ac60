import Aixinwu.Lib.KeyedDraws
import Aixinwu.Warehouse.Deallocate

/-!
# Taking items out of stocks

`_decrease_stocks_quantity` of `saleor/warehouse/management.py`. The loop over the lines draws on
the instances of the stocks, so a line finds what the lines before it have left in its stock; a line
that is refused draws nothing. The instances are written only after the loop, in one statement and
if no line was refused.

## Main definitions

* `stockPk`, `draws` — which stock a line draws on, and how much the lines draw
* `Stocked` — every line has a stock

## Main results

* `decreaseStocksQuantityLoop_eq` — what the loop does
* `decreaseStocksQuantity_spec` — all or nothing
-/

namespace Aixinwu

namespace Stocks

open Keyed

section Decrease

variable (stocks : List Stock) (infos : List OrderLineInfo)

/-- The stock a line draws on. -/
def stockPk (info : OrderLineInfo) : Option ℕ :=
  match stockOfLine stocks info with
  | .ok (some s) => some s.pk
  | _ => none

/-- What the lines draw on stocks; a line without a stock draws on none. -/
def draws : List (ℕ × ℤ) :=
  infos.filterMap fun info => (stockPk stocks info).map fun pk => (pk, info.quantity)

/-- Every line has a stock. -/
def Stocked : Prop := ∀ info ∈ infos, (stockPk stocks info).isSome

/-- The lines that are looked up have variants, as those have that track their inventory. -/
def HaveVariants : Prop := ∀ info ∈ infos, info.warehousePk.isSome → info.variant.isSome

variable {stocks infos} {info : OrderLineInfo}

/-- Only a line with a warehouse and without a variant cannot be looked up. -/
theorem exists_stockOfLine_iff (stocks : List Stock) (info : OrderLineInfo) :
    (∃ stock, stockOfLine stocks info = .ok stock)
      ↔ (info.warehousePk.isSome → info.variant.isSome) := by
  rw [stockOfLine]
  cases info.warehousePk with
  | none => simp
  | some warehouse =>
    cases info.variant with
    | none => simp
    | some variant => simp

theorem stockOfLine_eq_ok (stocks : List Stock)
    (h : info.warehousePk.isSome → info.variant.isSome) :
    ∃ stock, stockOfLine stocks info = .ok stock ∧ stockPk stocks info = stock.map (·.pk) := by
  obtain ⟨stock, hstock⟩ := (exists_stockOfLine_iff stocks info).mpr h
  refine ⟨stock, hstock, ?_⟩
  rw [stockPk, hstock]
  cases stock <;> rfl

theorem draws_cons_of_none (h : stockPk stocks info = none) :
    draws stocks (info :: infos) = draws stocks infos := by
  rw [draws, List.filterMap_cons, h]
  rfl

theorem draws_cons_of_some {pk : ℕ} (h : stockPk stocks info = some pk) :
    draws stocks (info :: infos) = (pk, info.quantity) :: draws stocks infos := by
  rw [draws, List.filterMap_cons, h]
  rfl

/-- **The loop** refuses no line exactly if stocks may be exceeded, or every line has a stock and
every part of the lines fits; and if it refuses none the stocks hold what is left after the draws.
-/
theorem decreaseStocksQuantityLoop_eq (stocks : List Stock) (allocated : ℕ → ℤ) (allow : Bool)
    (held : ℕ → ℤ) (hvariants : HaveVariants infos) :
    ∃ left items, decreaseStocksQuantityLoop stocks allocated allow held infos = .ok (left, items) ∧
      (items = [] ↔ allow = true ∨
        Stocked stocks infos ∧ Covers allocated held (draws stocks infos)) ∧
      (items = [] → left = drawn held (draws stocks infos)) := by
  induction infos generalizing held with
  | nil =>
    refine ⟨held, [], rfl, ⟨fun _ => Or.inr ⟨?_, covers_nil⟩, fun _ => rfl⟩, fun _ => ?_⟩
    · intro info hinfo
      cases hinfo
    · exact drawn_nil.symm
  | cons info infos ih =>
    obtain ⟨hvariant, hvariants⟩ := List.forall_mem_cons.mp hvariants
    obtain ⟨stock, hstock, hpk⟩ := stockOfLine_eq_ok stocks hvariant
    rw [decreaseStocksQuantityLoop]
    simp only [hstock]
    cases stock with
    | none =>
      obtain ⟨left, items, hrest, hiff, hleft⟩ := ih held hvariants
      rw [hrest, draws_cons_of_none hpk]
      cases allow with
      | true => exact ⟨left, items, rfl, by simpa using hiff, hleft⟩
      | false =>
        -- the line is refused, so nothing is to be shown of the rest
        refine ⟨left, _, rfl, ⟨fun hnil => ?_, ?_⟩, fun hnil => ?_⟩
        · cases hnil
        · rintro (hallow | ⟨hstocked, -⟩)
          · cases hallow
          · have hsome := hstocked info List.mem_cons_self
            rw [hpk] at hsome
            cases hsome
        · cases hnil
    | some s =>
      have hpk : stockPk stocks info = some s.pk := hpk
      have hstocked : Stocked stocks (info :: infos) ↔ Stocked stocks infos := by
        rw [Stocked, List.forall_mem_cons, hpk]
        exact and_iff_right rfl
      rw [draws_cons_of_some hpk, covers_cons, drawn_cons, hstocked]
      by_cases hrefused : held s.pk - allocated s.pk < info.quantity ∧ allow = false
      · obtain ⟨left, items, hrest, -, -⟩ := ih held hvariants
        obtain ⟨hless, rfl⟩ := hrefused
        simp only [hless, decide_true, Bool.not_false, Bool.and_self, if_true, hrest]
        refine ⟨left, _, rfl, ⟨fun hnil => ?_, ?_⟩, fun hnil => ?_⟩
        · cases hnil
        · rintro (hallow | ⟨-, hfirst, -⟩)
          · cases hallow
          · omega
        · cases hnil
      · obtain ⟨left, items, hrest, hiff, hleft⟩ :=
          ih (Function.update held s.pk (held s.pk - info.quantity)) hvariants
        refine ⟨left, items, ?_, ?_, hleft⟩
        · rw [← hrest]
          refine if_neg ?_
          simpa using hrefused
        · rw [hiff]
          cases allow with
          | true => simp
          | false =>
            have hfits : allocated s.pk ≤ held s.pk - info.quantity := by
              by_contra hmore
              exact hrefused ⟨by omega, rfl⟩
            simp [hfits]

/-- A loop that comes to its end has looked every line up. -/
theorem haveVariants_of_loop {allocated held : ℕ → ℤ} {allow : Bool}
    {r : (ℕ → ℤ) × List InsufficientStockData}
    (h : decreaseStocksQuantityLoop stocks allocated allow held infos = .ok r) :
    HaveVariants infos := by
  induction infos generalizing held r with
  | nil =>
    intro info hinfo
    cases hinfo
  | cons info infos ih =>
    rw [decreaseStocksQuantityLoop] at h
    dsimp only at h
    refine List.forall_mem_cons.mpr ⟨(exists_stockOfLine_iff stocks info).mp ?_, ?_⟩
    · cases hstock : stockOfLine stocks info with
      | error e =>
        rw [hstock] at h
        cases h
      | ok stock => exact ⟨stock, rfl⟩
    · split at h
      · cases h
      · split at h
        · exact ih h
        · obtain ⟨r', hrest, -⟩ := exists_of_map_eq_ok h
          exact ih hrest
      · split at h
        · obtain ⟨r', hrest, -⟩ := exists_of_map_eq_ok h
          exact ih hrest
        · exact ih h

/-- What is drawn on a stock is what the lines that are mapped to it ask for. -/
theorem sumAt_draws (stocks : List Stock) (infos : List OrderLineInfo) (pk : ℕ) :
    sumAt pk (draws stocks infos)
      = ((infos.filter fun info => stockPk stocks info = some pk).map (·.quantity)).sum := by
  induction infos with
  | nil => rfl
  | cons info infos ih =>
    cases hpk : stockPk stocks info with
    | none =>
      have hother : ¬ stockPk stocks info = some pk := by simp [hpk]
      rw [draws_cons_of_none hpk, ih, List.filter_cons_of_neg (by simpa using hother)]
    | some k =>
      rw [draws_cons_of_some hpk, sumAt_cons, ih]
      by_cases hk : k = pk
      · have hsame : stockPk stocks info = some pk := hpk.trans (congrArg some hk)
        rw [if_pos hk, List.filter_cons_of_pos (by simpa using hsame), List.map_cons,
          List.sum_cons]
      · have hother : ¬ stockPk stocks info = some pk := by simpa [hpk] using hk
        rw [if_neg hk, zero_add, List.filter_cons_of_neg (by simpa using hother)]

end Decrease

/-! ### All or nothing -/

section Spec

variable (stocks : List Stock) (infos : List OrderLineInfo) (allocated : ℕ → ℤ) (db : Db)

/-- The quantities of the stocks. -/
def quantityOfStock (pk : ℕ) : ℤ := ((db.stocks.find? pk).map (·.quantity)).getD 0

/-- A stock is lowered by what the lines mapped to it ask for. -/
def lower (s : Stock) : Stock :=
  { s with quantity := s.quantity
    - ((infos.filter fun info => stockPk stocks info = some s.pk).map (·.quantity)).sum }

/-- The stocks are lowered, and nothing else is written. -/
def lowered : Db := { db with stocks := db.stocks.map (lower stocks infos) fun _ => rfl }

/-- Every part of the lines up to some line leaves the stocks it touches with what is allocated. -/
def PartsFit : Prop := Covers allocated (quantityOfStock db) (draws stocks infos)

variable {stocks infos allocated db}

/-- A stock after its lines. -/
theorem find?_lowered (stocks : List Stock) (infos : List OrderLineInfo) {s : Stock}
    (hs : s ∈ db.stocks) :
    (lowered stocks infos db).stocks.find? s.pk = some (lower stocks infos s) := by
  have hmap : (lowered stocks infos db).stocks.find? s.pk
      = (db.stocks.find? s.pk).map (lower stocks infos) :=
    Table.find?_map db.stocks (lower stocks infos) (fun _ => rfl) s.pk
  have hfind : db.stocks.find? s.pk = some s := Table.mem_iff_find?.mp hs
  rw [hmap, hfind]
  rfl

/-- What is left after the draws is what is written. -/
theorem map_drawn (stocks : List Stock) (infos : List OrderLineInfo) (db : Db) :
    { db with
      stocks := db.stocks.map (fun s => { s with
        quantity := drawn (quantityOfStock db) (draws stocks infos) s.pk }) fun _ => rfl }
      = lowered stocks infos db := by
  rw [lowered]
  refine congrArg (fun t => { db with stocks := t }) (Table.ext ?_)
  refine List.map_congr_left fun s hs => ?_
  have hfind : db.stocks.find? s.pk = some s := Table.mem_iff_find?.mp hs
  rw [drawn, sumAt_draws, quantityOfStock, hfind]
  rfl

/-- **What the operation does**: it raises, or lowers the stocks, and it lowers them exactly if
stocks may be exceeded, or every line has a stock and every part of the lines fits. -/
theorem decreaseStocksQuantity_eq (stocks : List Stock) (allocated : ℕ → ℤ) (allow : Bool)
    (db : Db) (hvariants : HaveVariants infos) :
    (∃ items, items ≠ [] ∧
      decreaseStocksQuantity stocks infos allocated allow db = .error (.insufficientStock items) ∧
      ¬ (allow = true ∨ Stocked stocks infos ∧ PartsFit stocks infos allocated db)) ∨
    decreaseStocksQuantity stocks infos allocated allow db = .ok (lowered stocks infos db) ∧
      (allow = true ∨ Stocked stocks infos ∧ PartsFit stocks infos allocated db) := by
  obtain ⟨left, items, hloop, hiff, hleft⟩ :=
    decreaseStocksQuantityLoop_eq stocks allocated allow (quantityOfStock db) hvariants
  have hloop : decreaseStocksQuantityLoop stocks allocated allow
      (fun pk => ((db.stocks.find? pk).map (·.quantity)).getD 0) infos = .ok (left, items) := hloop
  rw [decreaseStocksQuantity]
  simp only [hloop]
  cases items with
  | nil =>
    refine Or.inr ⟨?_, hiff.mp rfl⟩
    rw [hleft rfl]
    exact congrArg Except.ok (map_drawn stocks infos db)
  | cons item items =>
    refine Or.inl ⟨item :: items, List.cons_ne_nil _ _, rfl, fun h => ?_⟩
    exact List.cons_ne_nil _ _ (hiff.mpr h)

/-- An operation that succeeds has lowered the stocks. -/
theorem eq_lowered {allow : Bool} {db' : Db}
    (h : decreaseStocksQuantity stocks infos allocated allow db = .ok db') :
    db' = lowered stocks infos db := by
  have hvariants : HaveVariants infos := by
    rw [decreaseStocksQuantity] at h
    split at h
    · cases h
    · cases h
    · rename_i hloop
      exact haveVariants_of_loop hloop
  rcases decreaseStocksQuantity_eq stocks allocated allow db hvariants with
    ⟨items, -, herror, -⟩ | ⟨hok, -⟩
  · rw [herror] at h
    cases h
  · exact Except.ok.inj (h.symm.trans hok)

/-- The parts of the lines that are covered leave every stock that is touched with what is
allocated. -/
theorem le_quantity_of_partsFit (h : PartsFit stocks infos allocated db) {s : Stock}
    (hs : s ∈ (lowered stocks infos db).stocks) {info : OrderLineInfo} (hinfo : info ∈ infos)
    (hpk : stockPk stocks info = some s.pk) : allocated s.pk ≤ s.quantity := by
  have htouched : s.pk ∈ (draws stocks infos).map Prod.fst := by
    refine List.mem_map.mpr ⟨(s.pk, info.quantity), List.mem_filterMap.mpr ⟨info, hinfo, ?_⟩, rfl⟩
    rw [hpk]
    rfl
  have hfloor := le_drawn_of_covers h htouched
  rw [← map_drawn] at hs
  obtain ⟨s', -, rfl⟩ := List.mem_map.mp hs
  exact hfloor

/-- **All or nothing.** The operation raises `InsufficientStock`, or lowers each stock by what the
lines mapped to it ask for; unless stocks may be exceeded every line then has a stock, and every
stock that is touched keeps what is allocated. It succeeds if every line has a stock and every part
of the lines up to some line fits. -/
theorem decreaseStocksQuantity_spec (stocks : List Stock) (infos : List OrderLineInfo)
    (allocated : ℕ → ℤ) (allow : Bool) (db : Db) (hvariants : HaveVariants infos) :
    ((∃ items,
        decreaseStocksQuantity stocks infos allocated allow db
          = .error (.insufficientStock items)) ∨
      decreaseStocksQuantity stocks infos allocated allow db = .ok (lowered stocks infos db) ∧
        (allow = false → Stocked stocks infos ∧
          ∀ s ∈ (lowered stocks infos db).stocks, ∀ info ∈ infos,
            stockPk stocks info = some s.pk → allocated s.pk ≤ s.quantity)) ∧
    (Stocked stocks infos → PartsFit stocks infos allocated db →
      decreaseStocksQuantity stocks infos allocated allow db = .ok (lowered stocks infos db)) := by
  rcases decreaseStocksQuantity_eq stocks allocated allow db hvariants with
    ⟨items, -, herror, hnot⟩ | ⟨hok, hiff⟩
  · exact ⟨Or.inl ⟨items, herror⟩, fun hstocked hfit => absurd (Or.inr ⟨hstocked, hfit⟩) hnot⟩
  · refine ⟨Or.inr ⟨hok, fun hallow => ?_⟩, fun _ _ => hok⟩
    obtain ⟨hstocked, hfit⟩ := hiff.resolve_left (by simp [hallow])
    exact ⟨hstocked, fun s hs info hinfo hpk => le_quantity_of_partsFit hfit hs hinfo hpk⟩

/-! ### Two lines of one stock -/

/-- A stock of five items. -/
def fiveItems : Stock := { pk := 1, warehouse := 1, productVariant := 1, quantity := 5 }

/-- A line of some items of its variant. -/
def lineOf (line : ℕ) (quantity : ℤ) : OrderLineInfo where
  line := line
  quantity := quantity
  variant := some { pk := 1 }
  warehousePk := some 1

/-- Two lines of two items are taken out of five, and one item is allocated. -/
theorem decreaseStocksQuantity_fiveItems :
    decreaseStocksQuantity [fiveItems] [lineOf 1 2, lineOf 2 2] (fun _ => 1) false
        { stocks := .singleton fiveItems }
      = .ok (lowered [fiveItems] [lineOf 1 2, lineOf 2 2] { stocks := .singleton fiveItems }) := by
  refine (decreaseStocksQuantity_spec _ _ _ _ _ ?_).2 ?_ ?_
  · simp [HaveVariants, lineOf]
  · intro info hinfo
    rcases List.mem_pair.mp hinfo with rfl | rfl <;> rfl
  · refine covers_cons.mpr ⟨by decide, covers_cons.mpr ⟨by decide, covers_nil⟩⟩

end Spec

end Stocks

end Aixinwu
