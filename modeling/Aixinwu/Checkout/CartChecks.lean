import Aixinwu.Checkout.CartUpdate
import Aixinwu.Warehouse.BulkAvailability
import Aixinwu.Warehouse.PreorderChecks

/-!
# Whether there is enough for a cart

Before `CheckoutLinesAdd` and `CheckoutLinesUpdate` change a checkout, `validate_checkout_lines`
counts what the line data have of each variant, and `check_lines_quantity` has it compared with what
is available. What matters is what the checkout will have of the variant, on all of its lines, and
what of the variant is neither allocated nor held for somebody else.

Both sides of the comparison are something else. On an addition one line of the variant is counted
besides what is asked for, since the lines stand in a dictionary under their variants, and the last
one is found there; on an update no line is counted but those the inputs name. And all reservations
are taken off, those that have expired and the checkout's own among them.

## Preorders

Variants in preorder are compared with their thresholds. That check fails as an error wherever
something is asked for, so it decides whether a request is accepted and never refuses one as
insufficient.

## Main definitions

* `LinesInput` — a request
* `getVariantsAndTotalQuantities`, `checkLinesQuantity`, `validateCheckoutLines`
* `resultingQuantity` — what the checkout will have of a variant
* `CountsWholeCart` — what the check should do
* `Overlooked`, `HeldUp` — the two ways to miss it

## Main results

* `getVariantsAndTotalQuantities_eq` — what is counted, from the inputs
* `checkLinesQuantity_outcome`
* `countsWholeCart_iff` — when the check is right
-/

namespace Aixinwu

namespace CartLines

open Nodes (Texts)
open Stocks (Variant Store StockCheck DeliveryMethodInfo CheckoutLineInfo StockCheckError
  PreorderCheckError PreorderCheck InsufficientStockData checkStockQuantityBulk
  checkPreorderThresholdBulk freeQuantity unallocated heldOf blocks GoesOn)

/-! ### Requests -/

/-- The inputs of `CheckoutLinesAdd` or of `CheckoutLinesUpdate`. -/
inductive LinesInput where
  | add (lines : List CheckoutLineInput)
  | update (lines : List CheckoutLineUpdateInput)

namespace LinesInput

/-- Whether quantities are replaced. -/
def replace : LinesInput → Bool
  | add _ => false
  | update _ => true

variable (texts : Texts) (linesInfo : List CheckoutLine)

/-- `_get_grouped_lines_data`. -/
def getGroupedLinesData : LinesInput → Except Failure (List CheckoutLineData)
  | add lines => groupLinesInputOnAdd texts linesInfo lines
  | update lines => groupLinesInputDataOnUpdate texts linesInfo lines

/-- The inputs name what they are for. -/
def Accepted : LinesInput → Prop
  | add _ => True
  | update lines => CartLines.Accepted texts linesInfo lines

/-- What is asked for. -/
def asks : LinesInput → List Ask
  | add lines => lines.filterMap fun input =>
    (input.target texts linesInfo).map fun target => (target, input.quantity)
  | update lines => lines.filterMap fun input =>
    (input.target texts linesInfo).map fun target => (target, input.quantity)

end LinesInput

/-! ### The check -/

/-- `get_variants_and_total_quantities`: the entries of `variants_total_quantity_map`. -/
def getVariantsAndTotalQuantities (variants : List Variant) (linesData : List CheckoutLineData)
    (quantityToUpdateCheck : Bool) : List (Variant × ℤ) :=
  let linesData := linesData.filter fun d => !quantityToUpdateCheck || d.quantityToUpdate
  let mappedData :=
    Grouping.gather 0 CheckoutLineData.variantId (fun d n => n + d.quantity) linesData []
  variants.foldl (fun m v =>
    match mappedData.find? (·.1 = some (toString v.pk)) with
    | none => m
    | some e => Grouping.alter 0 v (· + e.2) m) []

/-- An error of a field. -/
structure FieldError where
  field : String
  message : String
  code : String
deriving DecidableEq, Repr

/-- What the check of the quantities raises. -/
inductive CheckError where
  | zeroQuantity (e : FieldError)
  | quantityLimit (e : FieldError)
  | insufficientStock (errors : List FieldError)
  | keyError
  | typeError
deriving DecidableEq, Repr

/-- The loop over the quantities. -/
def checkQuantities (allowZeroQuantity : Bool) : List ℤ → Except CheckError Unit
  | [] => .ok ()
  | quantity :: quantities =>
    if !allowZeroQuantity && decide (quantity ≤ 0) then
      .error (.zeroQuantity ⟨"quantity", "The quantity should be higher than zero.",
        "zero_quantity"⟩)
    else if allowZeroQuantity && decide (quantity < 0) then
      .error (.zeroQuantity ⟨"quantity", "The quantity should be higher or equal zero.",
        "zero_quantity"⟩)
    else checkQuantities allowZeroQuantity quantities

/-- The check of the preorders that goes with one of the stocks. -/
def preorderCheck (c : StockCheck) : PreorderCheck where
  channelSlug := c.channelSlug
  globalQuantityLimit := c.globalQuantityLimit
  existingLines := c.existingLines
  replace := c.replace
  checkReservations := c.checkReservations

/-- `stock_variants`, with their quantities. -/
def stockPairs (now : Time) (pairs : List (Variant × ℤ)) : List (Variant × ℤ) :=
  pairs.filter fun p => !p.1.isPreorderActive now

/-- `preorder_variants`, with their quantities. -/
def preorderPairs (now : Time) (pairs : List (Variant × ℤ)) : List (Variant × ℤ) :=
  pairs.filter fun p => p.1.isPreorderActive now

/-- `check_stock_and_preorder_quantity_bulk`. -/
def checkStockAndPreorderQuantityBulk (c : StockCheck) (db : Store) (now : Time)
    (pairs : List (Variant × ℤ)) : Except (StockCheckError ⊕ PreorderCheckError) Unit :=
  let stock := stockPairs now pairs
  let preorder := preorderPairs now pairs
  match if stock = [] then .ok () else
    checkStockQuantityBulk c db (stock.map (·.1)) (stock.map (·.2)) with
  | .error e => .error (.inl e)
  | .ok () =>
    match if preorder = [] then .ok () else
      checkPreorderThresholdBulk db.toDb now (preorderCheck c) (preorder.map (·.1.toProductVariant))
        (preorder.map (·.2)) with
    | .error e => .error (.inr e)
    | .ok () => .ok ()

/-- The error of an item that is insufficient. -/
def couldNotAdd (variants : List Variant) (item : InsufficientStockData) : FieldError where
  field := "quantity"
  message := "Could not add items "
    ++ ((item.variant.bind fun v => variants.find? (·.pk = v.pk)).elim "None" (·.str))
    ++ ". Only " ++ toString (max item.availableQuantity 0) ++ " remaining in stock."
  code := "insufficient_stock"

/-- What is raised for an error of the stocks or of the preorders. -/
def CheckError.ofBulk (variants : List Variant) : StockCheckError ⊕ PreorderCheckError → CheckError
  | .inl (.quantityLimit e) | .inr (.quantityLimit e) => .quantityLimit ⟨e.field, e.message, e.code⟩
  | .inl (.insufficientStock items) | .inr (.insufficientStock items) =>
    .insufficientStock (items.map (couldNotAdd variants))
  | .inr .keyError => .keyError
  | .inr .typeError => .typeError

/-- `check_lines_quantity`. -/
def checkLinesQuantity (c : StockCheck) (db : Store) (now : Time) (allowZeroQuantity : Bool)
    (pairs : List (Variant × ℤ)) : Except CheckError Unit :=
  match checkQuantities allowZeroQuantity (pairs.map (·.2)) with
  | .error e => .error e
  | .ok () =>
    match checkStockAndPreorderQuantityBulk c db now pairs with
    | .error e => .error (.ofBulk (pairs.map (·.1)) e)
    | .ok () => .ok ()

/-- What `validate_checkout_lines` reads besides the variants and the line data. -/
structure Validation where
  user : Option ℕ := none
  country : String
  channelSlug : String
  deliveryMethodInfo : Option DeliveryMethodInfo := none
  limitQuantityPerCheckout : Option ℤ := none
  reserveStockDurationAuthenticatedUser : Option ℤ := none
  reserveStockDurationAnonymousUser : Option ℤ := none

namespace Validation

variable (c : Validation)

/-- `is_reservation_enabled`. -/
def isReservationEnabled : Bool :=
  c.reserveStockDurationAuthenticatedUser.any (· ≠ 0)
    || c.reserveStockDurationAnonymousUser.any (· ≠ 0)

/-- What the stocks are checked with. -/
def stockCheck (lines : List CheckoutLine) (replace : Bool) : StockCheck where
  user := c.user
  countryCode := c.country
  channelSlug := c.channelSlug
  globalQuantityLimit := c.limitQuantityPerCheckout
  deliveryMethodInfo := c.deliveryMethodInfo
  existingLines := lines.map fun line => ⟨line.pk, line.variant, line.quantity⟩
  replace := replace
  checkReservations := c.isReservationEnabled

/-- `validate_checkout_lines`. `CheckoutLinesUpdate` counts the line data with a quantity, lets a
quantity be zero and has it replace what there is; `CheckoutLinesAdd` does neither. -/
def validateCheckoutLines (db : Store) (now : Time) (lines : List CheckoutLine)
    (isUpdate : Bool) (variants : List Variant) (linesData : List CheckoutLineData) :
    Except CheckError Unit :=
  checkLinesQuantity (c.stockCheck lines isUpdate) db now isUpdate
    (getVariantsAndTotalQuantities variants linesData isUpdate)

end Validation

/-! ### What is counted -/

section Counted

variable {texts : Texts} {cart : Cart} {es : List (Entry texts cart.rows)}

/-- The inputs of a request, one after another. -/
theorem LinesInput.exists_entries {r : LinesInput} {data : List CheckoutLineData}
    (haccepted : r.Accepted texts cart.rows)
    (h : r.getGroupedLinesData texts cart.rows = .ok data) :
    ∃ es : List (Entry texts cart.rows),
      data = (Grouped.addAll {} es).data ∧ r.asks texts cart.rows = es.map Entry.ask := by
  cases r with
  | add lines =>
    obtain ⟨g, hg, rfl⟩ := exists_of_map_eq_ok h
    obtain ⟨es, hes, rfl⟩ := exists_entries_of_addLoop hg
    refine ⟨es, rfl, filterMap_eq_map_of_forall₂ (hes.imp fun input e he => ?_)⟩
    rw [he.1, Option.map_some, Entry.ask, he.2]
    rfl
  | update lines =>
    obtain ⟨g, hg, rfl⟩ := exists_of_map_eq_ok h
    obtain ⟨es, hes, rfl⟩ := exists_entries_of_updateLoop haccepted hg
    refine ⟨es, rfl, filterMap_eq_map_of_forall₂ (hes.imp fun input e he => ?_)⟩
    rw [he.1, Option.map_some, Entry.ask, he.2]
    rfl

/-- The line data are those of a new line of an input's own, or of a target that inputs share. -/
theorem mem_data {d : CheckoutLineData} : d ∈ (Grouped.addAll {} es).data ↔
    (∃ e ∈ es, e.target.isNewLine = true ∧ e.write {} = d) ∨
      ∃ target ∈ sharedTargets es, dataFor es target = d := by
  rw [data_perm.mem_iff, List.mem_append, List.mem_map, List.mem_map]
  simp only [List.mem_filter, and_assoc]

theorem variantId_write_ask (e : Entry texts cart.rows) :
    (e.write {}).variantId = e.target.variantId cart.rows := by
  rw [Entry.write, CheckoutLineData.variantId_write, e.variantId_address cart.nodup]

/-- An input is for a new line of its own, or for a shared target. -/
theorem mem_sharedTargets_of_mem {e : Entry texts cart.rows} (he : e ∈ es)
    (h : e.target.isNewLine = false) : e.target ∈ sharedTargets es :=
  mem_sharedTargets.mpr ⟨⟨e, he, rfl⟩, h⟩

/-- **The quantities of the line data of a variant** are what is asked for of it. -/
theorem sum_data_eq_askedOf (t : Option String) :
    sumIf (fun d : CheckoutLineData => decide (d.variantId = t)) (·.quantity)
        (Grouped.addAll {} es).data
      = sumIf (fun a : Ask => decide (a.1.variantId cart.rows = t)) (fun a => a.2.getD 0)
        (es.map Entry.ask) := by
  have hown : sumIf (fun d : CheckoutLineData => decide (d.variantId = t)) (·.quantity)
      ((es.filter (·.target.isNewLine)).map (·.write {}))
      = sumIf (fun a : Ask => a.1.isNewLine && decide (a.1.variantId cart.rows = t))
        (fun a => a.2.getD 0) (es.map Entry.ask) := by
    rw [sumIf_map, sumIf_map, sumIf_filter]
    refine sumIf_congr (fun e _ => ?_) fun e _ _ => ?_
    · rw [Function.comp_apply, Function.comp_apply, variantId_write_ask, Bool.and_comm]
      rfl
    · simp [Entry.write]
  have hkeys : ((sharedTargets es).filter fun target =>
      decide (target.variantId cart.rows = t)).Nodup := nodup_sharedTargets.filter _
  have hshared : sumIf (fun d : CheckoutLineData => decide (d.variantId = t)) (·.quantity)
      ((sharedTargets es).map (dataFor es))
      = sumIf (fun a : Ask => decide (a.1 ∈ (sharedTargets es).filter fun target =>
          decide (target.variantId cart.rows = t))) (fun a => a.2.getD 0) (es.map Entry.ask) := by
    rw [← sum_sumIf_key (fun a : Ask => a.1) (fun a => a.2.getD 0) hkeys, sumIf_map]
    have hvariant : ∀ target ∈ sharedTargets es,
        ((fun d : CheckoutLineData => decide (d.variantId = t)) ∘ dataFor es) target
          = decide (target.variantId cart.rows = t) := fun target htarget => by
      rw [Function.comp_apply, variantId_dataFor cart.nodup htarget]
    rw [sumIf, List.filter_congr hvariant]
    refine congrArg List.sum (List.map_congr_left fun target _ => ?_)
    exact quantity_dataFor target
  rw [sumIf_perm _ _ data_perm, sumIf_append, hown, hshared, ← sumIf_or]
  · refine sumIf_congr (fun a ha => ?_) fun _ _ _ => rfl
    obtain ⟨e, he, rfl⟩ := List.mem_map.mp ha
    rw [Bool.eq_iff_iff]
    cases hnew : e.target.isNewLine with
    | true =>
      have hnot : e.target ∉ sharedTargets es := fun hmem => by
        rw [(mem_sharedTargets.mp hmem).2] at hnew
        cases hnew
      simp [hnew, hnot]
    | false =>
      rw [Entry.ask_fst, hnew, Bool.false_and, Bool.false_or, decide_eq_true_iff,
        decide_eq_true_iff, List.mem_filter, decide_eq_true_iff]
      exact and_iff_right (mem_sharedTargets_of_mem he hnew)
  · intro a ha hown hmem
    obtain ⟨htarget, -⟩ := List.mem_filter.mp (of_decide_eq_true hmem)
    rw [(mem_sharedTargets.mp htarget).2] at hown
    cases hown

/-- Whether the quantity of a variant is counted. -/
def counted (replace : Bool) (asks : List Ask) (cart : Cart) (v : ℕ) : Bool :=
  asks.any fun a => decide (a.1.variantId cart.rows = some (toString v)) && (!replace || a.2.isSome)

/-- There are line data of a variant that count, if there is an input of it that does. -/
theorem exists_data_iff (replace : Bool) (v : ℕ) :
    (∃ d ∈ (Grouped.addAll {} es).data, (!replace || d.quantityToUpdate) = true ∧
        d.variantId = some (toString v))
      ↔ counted replace (es.map Entry.ask) cart v = true := by
  rw [counted, List.any_map, List.any_eq_true]
  constructor
  · rintro ⟨d, hd, hquantity, hvariant⟩
    rcases mem_data.mp hd with ⟨e, he, -, rfl⟩ | ⟨target, htarget, rfl⟩
    · rw [variantId_write_ask] at hvariant
      refine ⟨e, he, ?_⟩
      simpa [Entry.write, hvariant] using hquantity
    · rw [variantId_dataFor cart.nodup htarget] at hvariant
      rw [quantityToUpdate_dataFor] at hquantity
      cases replace with
      | false =>
        obtain ⟨⟨e, he, rfl⟩, -⟩ := mem_sharedTargets.mp htarget
        exact ⟨e, he, by simp [hvariant]⟩
      | true =>
        obtain ⟨a, ha, hgiven⟩ := List.any_eq_true.mp hquantity
        obtain ⟨e, he, rfl⟩ := List.mem_map.mp ha
        obtain ⟨htarget', hsome⟩ := Bool.and_eq_true_iff.mp hgiven
        obtain rfl := of_decide_eq_true htarget'
        refine ⟨e, he, ?_⟩
        rw [Entry.ask_fst] at hvariant
        simp only [Function.comp_apply, Entry.ask_fst, hvariant, hsome]
        simp
  · rintro ⟨e, he, hcounts⟩
    obtain ⟨hvariant, hquantity⟩ := Bool.and_eq_true_iff.mp hcounts
    have hvariant := of_decide_eq_true hvariant
    rw [Entry.ask_fst] at hvariant
    cases hnew : e.target.isNewLine with
    | true =>
      refine ⟨e.write {}, mem_data.mpr (.inl ⟨e, he, hnew, rfl⟩), ?_, ?_⟩
      · simpa [Entry.write] using hquantity
      · rw [variantId_write_ask, hvariant]
    | false =>
      have htarget := mem_sharedTargets_of_mem he hnew
      refine ⟨dataFor es e.target, mem_data.mpr (.inr ⟨_, htarget, rfl⟩), ?_, ?_⟩
      · rw [quantityToUpdate_dataFor]
        cases replace with
        | false => rfl
        | true =>
          refine List.any_eq_true.mpr ⟨e.ask, List.mem_map_of_mem he, ?_⟩
          simpa using hquantity
      · rw [variantId_dataFor cart.nodup htarget, hvariant]

/-- Line data without a quantity have none. -/
theorem quantity_of_not_quantityToUpdate {d : CheckoutLineData}
    (hd : d ∈ (Grouped.addAll {} es).data) (h : d.quantityToUpdate = false) : d.quantity = 0 := by
  rcases mem_data.mp hd with ⟨e, -, -, rfl⟩ | ⟨target, -, rfl⟩
  · rw [Entry.write, CheckoutLineData.quantityToUpdate_write, Bool.false_or,
      Option.isSome_eq_false_iff, Option.isNone_iff_eq_none] at h
    rw [Entry.write, CheckoutLineData.quantity_write, h]
    rfl
  · rw [quantityToUpdate_dataFor] at h
    rw [quantity_dataFor, asked_of_not_given h]

/-- What is mapped to a variant. -/
theorem find?_mappedData (replace : Bool) (v : ℕ) :
    (Grouping.gather 0 CheckoutLineData.variantId (fun d n => n + d.quantity)
        ((Grouped.addAll {} es).data.filter fun d => !replace || d.quantityToUpdate) []).find?
      (·.1 = some (toString v))
      = if counted replace (es.map Entry.ask) cart v then
          some (some (toString v), askedOf (es.map Entry.ask) cart v) else none := by
  have hsum : ∀ (data : List CheckoutLineData) (n : ℤ),
      data.foldl (fun n d => n + d.quantity) n = n + (data.map (·.quantity)).sum := by
    intro data
    induction data with
    | nil => simp
    | cons d data ih => intro n; rw [List.foldl_cons, ih, List.map_cons, List.sum_cons, add_assoc]
  have hkey : (some (toString v) ∈ (Grouping.gather 0 CheckoutLineData.variantId
      (fun d n => n + d.quantity) ((Grouped.addAll {} es).data.filter fun d =>
        !replace || d.quantityToUpdate) []).map (·.1))
      ↔ counted replace (es.map Entry.ask) cart v = true := by
    rw [Grouping.mem_keys_gather, ← exists_data_iff]
    simp only [List.mem_map, List.mem_filter, List.map_nil, List.not_mem_nil, or_false, and_assoc]
  rw [Grouping.find?_key 0]
  by_cases hcounted : counted replace (es.map Entry.ask) cart v = true
  · rw [if_pos hcounted, if_pos (hkey.mpr hcounted), Grouping.get_gather, Grouping.get_nil, hsum,
      zero_add, askedOf, ← sum_data_eq_askedOf]
    refine congrArg (fun n => some (some (toString v), n)) ?_
    -- line data that are not counted have no quantity
    have hfilter := sumIf_filter
      (fun d : CheckoutLineData => decide (d.variantId = some (toString v))) (·.quantity)
      (fun d => !replace || d.quantityToUpdate) (Grouped.addAll {} es).data
    refine hfilter.trans (sumIf_of_subset (fun d _ hd => (Bool.and_eq_true_iff.mp hd).1)
      fun d hd hvariant hnot => quantity_of_not_quantityToUpdate hd ?_)
    simp only [Bool.and_eq_true, not_and, hvariant, forall_const, Bool.or_eq_true, not_or,
      Bool.not_eq_true] at hnot
    exact hnot.2
  · rw [if_neg hcounted, if_neg fun hmem => hcounted (hkey.mp hmem)]

/-- The variants that are counted, with what is asked for. -/
def countedPairs (replace : Bool) (asks : List Ask) (cart : Cart) (variants : List Variant) :
    List (Variant × ℤ) :=
  (variants.filter fun v => counted replace asks cart v.pk).map fun v =>
    (v, askedOf asks cart v.pk)

/-- **What is counted** of a variant is what the inputs ask for, if one does. -/
theorem getVariantsAndTotalQuantities_eq (replace : Bool) {variants : List Variant}
    (hvariants : (variants.map (·.pk)).Nodup) :
    getVariantsAndTotalQuantities variants (Grouped.addAll {} es).data replace
      = countedPairs replace (es.map Entry.ask) cart variants := by
  have hloop : ∀ (vs : List Variant) (m : List (Variant × ℤ)),
      (∀ v ∈ vs, v ∉ m.map (·.1)) → vs.Nodup →
      vs.foldl (fun m v =>
        match (Grouping.gather 0 CheckoutLineData.variantId (fun d n => n + d.quantity)
          ((Grouped.addAll {} es).data.filter fun d => !replace || d.quantityToUpdate) []).find?
            (·.1 = some (toString v.pk)) with
        | none => m
        | some e => Grouping.alter 0 v (· + e.2) m) m
        = m ++ countedPairs replace (es.map Entry.ask) cart vs := by
    intro vs
    induction vs with
    | nil => intro m _ _; simp [countedPairs]
    | cons v vs ih =>
      intro m hm hnodup
      obtain ⟨hv, hvs⟩ := List.nodup_cons.mp hnodup
      obtain ⟨hfirst, hrest⟩ := List.forall_mem_cons.mp hm
      rw [List.foldl_cons, find?_mappedData]
      by_cases hcounted : counted replace (es.map Entry.ask) cart v.pk = true
      · rw [if_pos hcounted]
        dsimp only
        rw [Grouping.alter_of_not_mem hfirst, zero_add, ih _ _ hvs]
        · simp [countedPairs, hcounted]
        · intro w hw
          rw [List.map_append, List.mem_append, not_or]
          refine ⟨hrest w hw, fun hmem => hv ?_⟩
          rw [← (by simpa using hmem : w = v)]
          exact hw
      · rw [if_neg hcounted]
        dsimp only
        rw [ih m hrest hvs]
        simp [countedPairs, hcounted]
  rw [getVariantsAndTotalQuantities]
  exact (hloop variants [] (by simp) hvariants.of_map).trans (List.nil_append _)

end Counted

/-! ### What the check finds out -/

section Check

variable {c : StockCheck} {db : Store} {now : Time}

/-- What the check compares with: what is not allocated, less what all reservations hold. -/
def leftQuantity (c : StockCheck) (db : Store) (variants : List Variant) (v : ℕ) : ℤ :=
  max (unallocated c db variants v - (if c.checkReservations then
    heldOf db.toDb (fun _ => true) (c.variantStocks db variants v) else 0)) 0

theorem availableQuantity_eq_leftQuantity (c : StockCheck) (db : Store) (variants : List Variant)
    (v : ℕ) : c.availableQuantity db variants v = leftQuantity c db variants v := by
  cases h : c.checkReservations with
  | true =>
    rw [Stocks.availableQuantity_eq c db variants h, Stocks.unheldQuantity, leftQuantity, if_pos h]
  | false =>
    rw [StockCheck.availableQuantity, StockCheck.variantReservations, leftQuantity, unallocated,
      funext (Stocks.annotateAvailableQuantity_eq db.toDb), h]
    rfl

/-- The quantities are positive, or where zero is allowed not negative. -/
def InOrder (allowZeroQuantity : Bool) (pairs : List (Variant × ℤ)) : Prop :=
  ∀ p ∈ pairs, if allowZeroQuantity then 0 ≤ p.2 else 0 < p.2

theorem inOrder_cons {allowZeroQuantity : Bool} {p : Variant × ℤ} {pairs : List (Variant × ℤ)} :
    InOrder allowZeroQuantity (p :: pairs)
      ↔ (if allowZeroQuantity then 0 ≤ p.2 else 0 < p.2) ∧ InOrder allowZeroQuantity pairs :=
  List.forall_mem_cons

theorem checkQuantities_cases (allowZeroQuantity : Bool) (pairs : List (Variant × ℤ)) :
    (InOrder allowZeroQuantity pairs ∧
        checkQuantities allowZeroQuantity (pairs.map (·.2)) = .ok ()) ∨
      (¬ InOrder allowZeroQuantity pairs ∧ ∃ e,
        checkQuantities allowZeroQuantity (pairs.map (·.2)) = .error (.zeroQuantity e)) := by
  induction pairs with
  | nil => exact .inl ⟨fun p hp => absurd hp List.not_mem_nil, rfl⟩
  | cons p pairs ih =>
    rw [inOrder_cons, List.map_cons, checkQuantities]
    cases allowZeroQuantity with
    | true =>
      by_cases hp : 0 ≤ p.2
      · simpa [hp, not_lt.mpr hp] using ih
      · simp [hp, not_le.mp hp]
    | false =>
      by_cases hp : 0 < p.2
      · simpa [hp, not_le.mpr hp] using ih
      · simp [hp, not_lt.mp hp]

/-- Past a limit the check of the stocks raises what the limit raises. -/
theorem checkStockQuantityBulk_of_not_withinLimits {variants : List Variant} {quantities : List ℤ}
    (h : ¬ c.WithinLimits db (variants.zip quantities)) :
    ∃ e, checkStockQuantityBulk c db variants quantities = .error (.quantityLimit e) := by
  have hloop : ∀ (pairs : List (Variant × ℤ)) (items : List InsufficientStockData),
      ¬ c.WithinLimits db pairs →
      ∃ e, c.checkPairs db variants items pairs = .error (.quantityLimit e) := by
    intro pairs
    induction pairs with
    | nil => exact fun _ hnot => absurd (fun p hp => absurd hp List.not_mem_nil) hnot
    | cons p pairs ih =>
      intro items hnot
      obtain ⟨variant, quantity⟩ := p
      rw [StockCheck.WithinLimits, List.forall_mem_cons, not_and_or] at hnot
      rw [StockCheck.checkPairs]
      by_cases hpos : 0 < c.effectiveQuantity variant quantity
      · have hpos' := hpos
        rw [StockCheck.effectiveQuantity] at hpos'
        rw [if_pos hpos']
        cases hlimit : Stocks.checkQuantityLimits db.purchases c.user variant
            (if c.replace then quantity else quantity + c.variantsQuantities variant.pk)
            c.globalQuantityLimit with
        | error e => exact ⟨e, rfl⟩
        | ok u =>
          refine ih _ (hnot.resolve_left fun hfirst => hfirst fun _ => ?_)
          rintro ⟨e, he⟩
          rw [StockCheck.effectiveQuantity, hlimit] at he
          cases he
      · have hpos' := hpos
        rw [StockCheck.effectiveQuantity] at hpos'
        rw [if_neg hpos']
        exact ih _ (hnot.resolve_left fun hfirst => hfirst fun h => absurd h hpos)
  obtain ⟨e, he⟩ := hloop _ [] h
  exact ⟨e, by rw [checkStockQuantityBulk, he]⟩

/-- There is enough for a pair: nothing is asked for, or the variant has stocks, and enough is left
if it is tracked. -/
def Served (c : StockCheck) (db : Store) (variants : List Variant) (p : Variant × ℤ) : Prop :=
  0 < c.effectiveQuantity p.1 p.2 → c.variantStocks db variants p.1.pk ≠ [] ∧
    (p.1.trackInventory = true → c.effectiveQuantity p.1 p.2 ≤ leftQuantity c db variants p.1.pk)

/-- There is enough for every pair. -/
def AllServed (c : StockCheck) (db : Store) (pairs : List (Variant × ℤ)) : Prop :=
  ∀ p ∈ pairs, Served c db (pairs.map (·.1)) p

theorem zip_map_fst_snd {α β : Type} (l : List (α × β)) : (l.map (·.1)).zip (l.map (·.2)) = l := by
  rw [List.zip_map', List.map_id']

/-- **The check of the stocks** accepts what is served within the limits, and refuses as
insufficient what is within the limits and not served. -/
theorem checkStockQuantityBulk_cases (pairs : List (Variant × ℤ)) :
    (¬ c.WithinLimits db pairs ∧ ∃ e, checkStockQuantityBulk c db (pairs.map (·.1))
        (pairs.map (·.2)) = .error (.quantityLimit e)) ∨
      (c.WithinLimits db pairs ∧ AllServed c db pairs ∧
        checkStockQuantityBulk c db (pairs.map (·.1)) (pairs.map (·.2)) = .ok ()) ∨
      (c.WithinLimits db pairs ∧ ¬ AllServed c db pairs ∧ ∃ items,
        checkStockQuantityBulk c db (pairs.map (·.1)) (pairs.map (·.2))
          = .error (.insufficientStock items)) := by
  have hzip := zip_map_fst_snd pairs
  by_cases hlimits : c.WithinLimits db pairs
  · have hlimits' := hlimits
    rw [← hzip] at hlimits'
    have hraises : Stocks.RaisesInsufficientStock c db (pairs.map (·.1)) (pairs.map (·.2))
        ↔ ¬ AllServed c db pairs := by
      rw [Stocks.raisesInsufficientStock_iff hlimits', hzip]
      simp only [AllServed, Served, availableQuantity_eq_leftQuantity, not_forall, not_and_or,
        exists_prop, not_not, not_le, Ne]
    by_cases hserved : AllServed c db pairs
    · refine .inr (.inl ⟨hlimits, hserved, ?_⟩)
      exact (Stocks.checkStockQuantityBulk_eq_ok_iff hlimits').mpr fun h => hraises.mp h hserved
    · exact .inr (.inr ⟨hlimits, hserved, hraises.mpr hserved⟩)
  · refine .inl ⟨hlimits, checkStockQuantityBulk_of_not_withinLimits ?_⟩
    rwa [hzip]

/-- The variants in preorder have a listing, and nothing is asked for. -/
def PreordersGoOn (c : StockCheck) (db : Store) (now : Time) (pairs : List (Variant × ℤ)) : Prop :=
  ∀ p ∈ preorderPairs now pairs, GoesOn db.toDb (preorderCheck c) (p.1.toProductVariant, p.2)

/-- The check of the preorders accepts, or fails as an error. -/
theorem checkPreorderThresholdBulk_cases (pairs : List (Stocks.ProductVariant × ℤ))
    (c : PreorderCheck) :
    ((∀ p ∈ pairs, GoesOn db.toDb c p) ∧ checkPreorderThresholdBulk db.toDb now c
        (pairs.map (·.1)) (pairs.map (·.2)) = .ok ()) ∨
      ((¬ ∀ p ∈ pairs, GoesOn db.toDb c p) ∧ ∃ e, checkPreorderThresholdBulk db.toDb now c
        (pairs.map (·.1)) (pairs.map (·.2)) = .error e ∧ ¬ e.Permitted) := by
  rw [checkPreorderThresholdBulk, zip_map_fst_snd]
  rcases Stocks.checkPreorderPairs_cases pairs [] with
    ⟨hall, hloop⟩ | ⟨hnot, e, hloop, he⟩
  · rw [hloop]
    exact .inl ⟨hall, rfl⟩
  · rw [hloop]
    exact .inr ⟨hnot, e, rfl, he⟩

/-- How the check can end, and what is so then. -/
inductive CheckOutcome (c : StockCheck) (db : Store) (now : Time) (allowZeroQuantity : Bool)
    (pairs : List (Variant × ℤ)) : Except CheckError Unit → Prop
  | zeroQuantity (horder : ¬ InOrder allowZeroQuantity pairs) (e : FieldError) :
    CheckOutcome c db now allowZeroQuantity pairs (.error (.zeroQuantity e))
  | quantityLimit (horder : InOrder allowZeroQuantity pairs)
    (hlimits : ¬ c.WithinLimits db (stockPairs now pairs)) (e : FieldError) :
    CheckOutcome c db now allowZeroQuantity pairs (.error (.quantityLimit e))
  | insufficientStock (horder : InOrder allowZeroQuantity pairs)
    (hlimits : c.WithinLimits db (stockPairs now pairs))
    (hserved : ¬ AllServed c db (stockPairs now pairs)) (errors : List FieldError) :
    CheckOutcome c db now allowZeroQuantity pairs (.error (.insufficientStock errors))
  | preorder (horder : InOrder allowZeroQuantity pairs)
    (hlimits : c.WithinLimits db (stockPairs now pairs))
    (hserved : AllServed c db (stockPairs now pairs)) (hgo : ¬ PreordersGoOn c db now pairs)
    (e : CheckError) (he : e = .keyError ∨ e = .typeError) :
    CheckOutcome c db now allowZeroQuantity pairs (.error e)
  | ok (horder : InOrder allowZeroQuantity pairs)
    (hlimits : c.WithinLimits db (stockPairs now pairs))
    (hserved : AllServed c db (stockPairs now pairs)) (hgo : PreordersGoOn c db now pairs) :
    CheckOutcome c db now allowZeroQuantity pairs (.ok ())

/-- **The outcomes of the check.** -/
theorem checkLinesQuantity_outcome (allowZeroQuantity : Bool) (pairs : List (Variant × ℤ)) :
    CheckOutcome c db now allowZeroQuantity pairs
      (checkLinesQuantity c db now allowZeroQuantity pairs) := by
  have hstock : (if stockPairs now pairs = [] then .ok () else checkStockQuantityBulk c db
      ((stockPairs now pairs).map (·.1)) ((stockPairs now pairs).map (·.2)))
      = checkStockQuantityBulk c db ((stockPairs now pairs).map (·.1))
        ((stockPairs now pairs).map (·.2)) := by
    split
    · rename_i hnil
      rw [hnil]
      rfl
    · rfl
  have hpreorder : (if preorderPairs now pairs = [] then .ok () else
      checkPreorderThresholdBulk db.toDb now (preorderCheck c)
        ((preorderPairs now pairs).map (·.1.toProductVariant))
        ((preorderPairs now pairs).map (·.2)))
      = checkPreorderThresholdBulk db.toDb now (preorderCheck c)
        ((preorderPairs now pairs).map (·.1.toProductVariant))
        ((preorderPairs now pairs).map (·.2)) := by
    split
    · rename_i hnil
      rw [hnil]
      rfl
    · rfl
  rw [checkLinesQuantity, checkStockAndPreorderQuantityBulk, hstock, hpreorder]
  rcases checkQuantities_cases allowZeroQuantity pairs with ⟨horder, hquantities⟩ | ⟨horder, e, he⟩
  · rw [hquantities]
    rcases @checkStockQuantityBulk_cases c db (stockPairs now pairs) with
      ⟨hlimits, e, he⟩ | ⟨hlimits, hserved, hok⟩ | ⟨hlimits, hserved, items, he⟩
    · rw [he]
      exact .quantityLimit horder hlimits _
    · have hmap := @checkPreorderThresholdBulk_cases db now
        ((preorderPairs now pairs).map fun p => (p.1.toProductVariant, p.2)) (preorderCheck c)
      rw [List.forall_mem_map, List.map_map, List.map_map] at hmap
      rw [hok]
      rcases hmap with ⟨hall, hok⟩ | ⟨hnot, e, he, hpermitted⟩
      · have hok' : checkPreorderThresholdBulk db.toDb now (preorderCheck c)
            ((preorderPairs now pairs).map (·.1.toProductVariant))
            ((preorderPairs now pairs).map (·.2)) = .ok () := hok
        rw [hok']
        exact .ok horder hlimits hserved hall
      · have he' : checkPreorderThresholdBulk db.toDb now (preorderCheck c)
            ((preorderPairs now pairs).map (·.1.toProductVariant))
            ((preorderPairs now pairs).map (·.2)) = .error e := he
        rw [he']
        refine .preorder horder hlimits hserved hnot _ ?_
        cases e with
        | insufficientStock items => exact absurd trivial hpermitted
        | quantityLimit e => exact absurd trivial hpermitted
        | keyError => exact .inl rfl
        | typeError => exact .inr rfl
    · rw [he]
      exact .insufficientStock horder hlimits hserved _
  · rw [he]
    exact .zeroQuantity horder e

/-- When the check accepts. -/
theorem checkLinesQuantity_eq_ok_iff (allowZeroQuantity : Bool) (pairs : List (Variant × ℤ)) :
    checkLinesQuantity c db now allowZeroQuantity pairs = .ok () ↔
      InOrder allowZeroQuantity pairs ∧ c.WithinLimits db (stockPairs now pairs) ∧
        AllServed c db (stockPairs now pairs) ∧ PreordersGoOn c db now pairs := by
  have h := @checkLinesQuantity_outcome c db now allowZeroQuantity pairs
  generalize checkLinesQuantity c db now allowZeroQuantity pairs = result at h ⊢
  cases h <;> simp [*]

/-- When it refuses the quantities as insufficient. -/
theorem checkLinesQuantity_insufficient_iff (allowZeroQuantity : Bool)
    (pairs : List (Variant × ℤ)) :
    (∃ errors, checkLinesQuantity c db now allowZeroQuantity pairs
        = .error (.insufficientStock errors)) ↔
      InOrder allowZeroQuantity pairs ∧ c.WithinLimits db (stockPairs now pairs) ∧
        ¬ AllServed c db (stockPairs now pairs) := by
  have h := @checkLinesQuantity_outcome c db now allowZeroQuantity pairs
  generalize checkLinesQuantity c db now allowZeroQuantity pairs = result at h ⊢
  cases h with
  | preorder horder hlimits hserved hgo e he => rcases he with rfl | rfl <;> simp [*]
  | _ => simp [*]

end Check

/-! ### Whether the check is right -/

section Exact

/-- **What the checkout will have** of a variant: what it has, less what is replaced or deleted, and
what the inputs bring. -/
def resultingQuantity (replace : Bool) (asks : List Ask) (cart : Cart) (v : ℕ) : ℤ :=
  total cart v - sumIf (fun line => decide (line.variant = v)) (lost replace asks) cart.rows
    + brought asks cart v

/-- **The check counts the whole cart**: if it accepts there is enough of every tracked variant for
all that the checkout will have, and it does not refuse a request as insufficient if there is enough
of every variant. -/
structure CountsWholeCart (c : Validation) (db : Store) (now : Time) (cart after : Cart)
    (isUpdate : Bool) (variants : List Variant) (data : List CheckoutLineData) : Prop where
  enough : c.validateCheckoutLines db now cart.rows isUpdate variants data = .ok () →
    ∀ v ∈ variants, v.trackInventory = true →
      total after v.pk ≤ freeQuantity (c.stockCheck cart.rows isUpdate) db now variants v.pk
  not_refused : (∀ v ∈ variants,
      total after v.pk ≤ freeQuantity (c.stockCheck cart.rows isUpdate) db now variants v.pk) →
    ¬ ∃ errors, c.validateCheckoutLines db now cart.rows isUpdate variants data
      = .error (.insufficientStock errors)

variable (c : StockCheck) (db : Store) (now : Time) (asks : List Ask) (cart : Cart)
  (variants : List Variant)

/-- Nothing else is wrong with the quantities that are counted: they are positive, or not negative
where they may be zero, and within the limits of what a customer may buy. -/
structure Admissible : Prop where
  inOrder : InOrder c.replace (countedPairs c.replace asks cart variants)
  limits : c.WithinLimits db (stockPairs now (countedPairs c.replace asks cart variants))

/-- There is enough for all that is counted, and too little of a tracked variant for all that the
checkout will have. -/
structure Overlooked : Prop extends Admissible c db now asks cart variants where
  served : AllServed c db (stockPairs now (countedPairs c.replace asks cart variants))
  preorders : PreordersGoOn c db now (countedPairs c.replace asks cart variants)
  too_little : ∃ v ∈ variants, v.trackInventory = true ∧
    freeQuantity c db now variants v.pk < resultingQuantity c.replace asks cart v.pk

/-- There is too little for something that is counted, and enough of every variant for all that the
checkout will have. -/
structure HeldUp : Prop extends Admissible c db now asks cart variants where
  not_served : ¬ AllServed c db (stockPairs now (countedPairs c.replace asks cart variants))
  fits : ∀ v ∈ variants,
    resultingQuantity c.replace asks cart v.pk ≤ freeQuantity c db now variants v.pk

variable {c db now asks cart variants}

/-- **The check is right** unless a request is overlooked or held up. -/
theorem countsWholeCart_iff {texts : Texts} {σ ε : Type} {reserver : Reserver σ ε}
    {keys : FreshKeys cart} {reservationLength : Option ℤ} {s s' : σ} {after : Cart}
    {data : List CheckoutLineData} (r : LinesInput) (c : Validation)
    (hvariants : (variants.map (·.pk)).Nodup) (haccepted : r.Accepted texts cart.rows)
    (hgroup : r.getGroupedLinesData texts cart.rows = .ok data)
    (hadd : addVariantsToCheckout texts (variants.map (·.pk)) keys.key r.replace reserver cart data
      reservationLength s = .ok (after, s')) :
    CountsWholeCart c db now cart after r.replace variants data ↔
      ¬ Overlooked (c.stockCheck cart.rows r.replace) db now (r.asks texts cart.rows) cart
        variants ∧
      ¬ HeldUp (c.stockCheck cart.rows r.replace) db now (r.asks texts cart.rows) cart
        variants := by
  obtain ⟨es, rfl, hasks⟩ := LinesInput.exists_entries haccepted hgroup
  have htotal : ∀ v, total after v
      = resultingQuantity r.replace (r.asks texts cart.rows) cart v := by
    rw [hasks]
    exact (follows_of_data hadd).totals
  have hcounted := @getVariantsAndTotalQuantities_eq texts cart es r.replace variants hvariants
  rw [← hasks] at hcounted
  have hok := @checkLinesQuantity_eq_ok_iff (c.stockCheck cart.rows r.replace) db now r.replace
    (countedPairs r.replace (r.asks texts cart.rows) cart variants)
  have hrefused := @checkLinesQuantity_insufficient_iff (c.stockCheck cart.rows r.replace) db now
    r.replace (countedPairs r.replace (r.asks texts cart.rows) cart variants)
  have hvalidate : c.validateCheckoutLines db now cart.rows r.replace variants
      (Grouped.addAll {} es).data = checkLinesQuantity (c.stockCheck cart.rows r.replace) db now
        r.replace (countedPairs r.replace (r.asks texts cart.rows) cart variants) := by
    rw [Validation.validateCheckoutLines, hcounted]
  constructor
  · rintro ⟨henough, hnot_refused⟩
    rw [hvalidate, hok] at henough
    rw [hvalidate, hrefused] at hnot_refused
    simp only [htotal] at henough hnot_refused
    constructor
    · rintro ⟨⟨hinOrder, hlimits⟩, hserved, hpreorders, v, hv, htracked, hover⟩
      exact absurd hover (not_lt.mpr
        (henough ⟨hinOrder, hlimits, hserved, hpreorders⟩ v hv htracked))
    · rintro ⟨⟨hinOrder, hlimits⟩, hserved, hfits⟩
      exact hnot_refused hfits ⟨hinOrder, hlimits, hserved⟩
  · rintro ⟨hoverlooked, hheldUp⟩
    refine ⟨fun h v hv htracked => ?_, fun hfits h => ?_⟩
    · rw [hvalidate, hok] at h
      obtain ⟨hinOrder, hlimits, hserved, hpreorders⟩ := h
      rw [htotal]
      by_contra hover
      exact hoverlooked ⟨⟨hinOrder, hlimits⟩, hserved, hpreorders, v, hv, htracked,
        not_le.mp hover⟩
    · rw [hvalidate, hrefused] at h
      obtain ⟨hinOrder, hlimits, hserved⟩ := h
      simp only [htotal] at hfits
      exact hheldUp ⟨⟨hinOrder, hlimits⟩, hserved, hfits⟩

end Exact

/-! ### Shirts on two lines -/

/-- Three mugs and six shirts in a warehouse of a channel, and reservations of them. -/
def mugsAndShirtsIn (reservations : Stocks.Reservations) : Store where
  channels := .singleton { pk := 1, slug := "main" }
  channelWarehouses := .singleton { pk := 1, channel := 1, warehouse := 1 }
  warehouses := .singleton { pk := 1, shippingZones := [1] }
  shippingZones := .singleton { pk := 1, countries := ["PL"], channels := [1] }
  stocks := ⟨[{ pk := 1, warehouse := 1, productVariant := 1, quantity := 3 },
    { pk := 2, warehouse := 1, productVariant := 2, quantity := 6 }], by decide⟩
  reservations := reservations

/-- A shop that reserves for five minutes. -/
def fiveMinutes : Validation where
  country := "PL"
  channelSlug := "main"
  deliveryMethodInfo := some { hasDeliveryMethod := true }
  reserveStockDurationAnonymousUser := some 5

/-- Shirts are added, which makes a third line, or the line of mugs is set to three again. -/
def moreShirts (n : ℤ) : LinesInput := .add [{ variantId := "shirt", quantity := some n }]

def moreShirtsData (n : ℤ) : List CheckoutLineData :=
  [{ variantId := some "2", quantity := n, quantityToUpdate := true }]

def threeMugsData : List CheckoutLineData :=
  [{ variantId := some "1", lineId := some (shopTexts.str 1), quantity := 3
     quantityToUpdate := true }]

/-- The cart with more shirts. -/
def withMoreShirts (n : ℤ) : Cart where
  rows := [{ pk := 1, variant := 1, quantity := 3 }, { pk := 2, variant := 2, quantity := 1 },
    { pk := 3, variant := 2, quantity := 4 }, { pk := 100, variant := 2, quantity := n }]
  nodup := by simp

/-- **Two more shirts are accepted**, seven of six: of those in the cart four are counted. And the
line of three mugs cannot be set to three if two of them are reserved for it. -/
theorem not_countsWholeCart_shirts :
    (¬ ∀ after, addVariantsToCheckout shopTexts [2] fromHundred.key false noReserver mugsAndShirts
        (moreShirtsData 2) none () = .ok (after, ()) →
      CountsWholeCart fiveMinutes (mugsAndShirtsIn .empty) 0 mugsAndShirts after false [{ pk := 2 }]
        (moreShirtsData 2)) ∧
    (¬ ∀ after, addVariantsToCheckout shopTexts [1] fromHundred.key true noReserver mugsAndShirts
        threeMugsData none () = .ok (after, ()) →
      CountsWholeCart fiveMinutes (mugsAndShirtsIn Stocks.twoHeld) 0 mugsAndShirts after true
        [{ pk := 1 }] threeMugsData) := by
  refine ⟨fun h => ?_, fun h => ?_⟩
  · have hcounts := h (withMoreShirts 2) rfl
    have hle := hcounts.enough rfl { pk := 2 } List.mem_cons_self rfl
    exact absurd hle (by decide)
  · have hcounts := h mugsAndShirts rfl
    refine hcounts.not_refused (fun v hv => ?_) ⟨_, rfl⟩
    obtain rfl := List.mem_singleton.mp hv
    decide

/-- One more shirt makes six. -/
theorem countsWholeCart_oneShirt :
    CountsWholeCart fiveMinutes (mugsAndShirtsIn .empty) 0 mugsAndShirts (withMoreShirts 1) false
      [{ pk := 2 }] (moreShirtsData 1) := by
  have hadd : addVariantsToCheckout shopTexts [2] fromHundred.key false noReserver mugsAndShirts
      (moreShirtsData 1) none () = .ok (withMoreShirts 1, ()) := rfl
  have hpairs : stockPairs 0 (countedPairs false ((moreShirts 1).asks shopTexts mugsAndShirts.rows)
      mugsAndShirts [{ pk := 2 }]) = [({ pk := 2 }, 1)] := by decide
  refine (countsWholeCart_iff (moreShirts 1) fiveMinutes (by decide) trivial rfl hadd).mpr
    ⟨fun h => ?_, fun h => h.not_served ?_⟩
  · obtain ⟨v, hv, -, hlittle⟩ := h.too_little
    obtain rfl := List.mem_singleton.mp hv
    exact absurd hlittle (by decide)
  · have hserved : AllServed (fiveMinutes.stockCheck mugsAndShirts.rows false)
        (mugsAndShirtsIn .empty) [({ pk := 2 }, 1)] := by
      intro p hp _
      obtain rfl := List.mem_singleton.mp hp
      exact ⟨by decide, fun _ => by decide⟩
    exact hpairs ▸ hserved

end CartLines

end Aixinwu
