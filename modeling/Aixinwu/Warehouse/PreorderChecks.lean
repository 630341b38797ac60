import Aixinwu.Warehouse.Availability
import Aixinwu.Warehouse.Preorders

/-!
# Checking the thresholds of a preorder

Whether a quantity can be preordered is tested in three places. `allocate_preorders` tests it when an
order is made: what is asked for must fit what the threshold of the listing and the global one leave,
each if it is set. `check_preorder_threshold_in_orders` tests it for a line of an order, and
`check_preorder_threshold_bulk` for the lines of a checkout.

The second tests the global threshold inside the branch for the listing's, so without the one the
other is not looked at. The third calls `_check_quantity_limits` without the user, which is an error
whatever is asked for, so nothing but taking items out of a checkout gets past it; and it compares the
quantities that are asked for with the thresholds, not the ones that the checkout would have.

## Main definitions

* `checkPreorderThresholdInOrders`, `checkPreorderThresholdBulk`
* `FitsThresholds` — what both are to test
* `CheckedRight`

## Main results

* `allocatePreorders_one_iff` — the allocator accepts what fits
* `preorderChecks_iff`
-/

namespace Aixinwu

namespace Stocks

/-! ### The checks -/

/-- What the checks raise. -/
inductive PreorderCheckError where
  | insufficientStock (items : List InsufficientStockData)
  | quantityLimit (e : QuantityLimitError)
  | keyError
  | typeError
deriving DecidableEq, Repr

section Checks

variable (db : Db) (listingsReservations : ℕ → ℤ)

/-- `available_channel_quantity`, of a listing with a threshold. -/
def availableChannelQuantity (l : ProductVariantChannelListing) (threshold : ℤ) : ℤ :=
  max (threshold - preorderAllocated db l.pk - listingsReservations l.pk) 0

/-- `global_availability`, of a variant with a threshold. -/
def globalAvailability (variants : List ℕ) (variant : ℕ) (threshold : ℤ) : ℤ :=
  let variantChannels := (variantsListings db variants).filter (·.variant = variant)
  max (threshold - (variantChannels.map fun l => preorderAllocated db l.pk).sum
    - (variantChannels.map fun l => listingsReservations l.pk).sum) 0

/-- What the test of a listing's threshold appends. -/
def channelItems (variant : ProductVariant) (l : ProductVariantChannelListing) (quantity : ℤ) :
    List InsufficientStockData :=
  match l.preorderQuantityThreshold with
  | none => []
  | some threshold =>
    let available := availableChannelQuantity db listingsReservations l threshold
    if available < quantity then [{ availableQuantity := available, variant := some variant }] else []

/-- What the test of the global threshold appends. -/
def globalItems (variants : List ℕ) (variant : ProductVariant) (quantity : ℤ) :
    List InsufficientStockData :=
  match variant.preorderGlobalThreshold with
  | none => []
  | some threshold =>
    let available := globalAvailability db listingsReservations variants variant.pk threshold
    if available < quantity then [{ availableQuantity := available, variant := some variant }] else []

end Checks

/-- `if insufficient_stocks: raise InsufficientStock(insufficient_stocks)`. -/
def raiseInsufficient : List InsufficientStockData → Except PreorderCheckError Unit
  | [] => .ok ()
  | item :: items => .error (.insufficientStock (item :: items))

/-- `check_preorder_threshold_in_orders`. -/
def checkPreorderThresholdInOrders (db : Db) (now : Time) (variant : ProductVariant) (quantity : ℤ)
    (channelSlug : String) (checkoutLines : Option (List ℕ)) (checkReservations : Bool) :
    Except PreorderCheckError Unit :=
  let reservations := listingsReservations db now checkReservations checkoutLines
    ((variantsListings db [variant.pk]).map (·.pk))
  match variantToChannelListing db channelSlug variant.pk with
  | none => .error .keyError
  | some l =>
    raiseInsufficient
      (if l.preorderQuantityThreshold.isSome then
        channelItems db reservations variant l quantity
          ++ globalItems db reservations [variant.pk] variant quantity
      else [])

/-- `_check_quantity_limits(variant, quantity, global_quantity_limit)`: the function takes a user
before the variant, so an argument is missing. -/
def checkQuantityLimitsWithoutUser (_variant : ProductVariant) (_quantity : ℤ)
    (_globalQuantityLimit : Option ℤ) : Except PreorderCheckError Unit := .error .typeError

/-- `variants_quantities.get(variant, 0)`; of the lines of a variant the last counts. -/
def existingQuantity (existingLines : List CheckoutLineInfo) (variant : ℕ) : ℤ :=
  match existingLines.reverse.find? (·.variant = variant) with
  | some line => line.quantity
  | none => 0

/-- The arguments of `check_preorder_threshold_bulk`, but for the variants and quantities. -/
structure PreorderCheck where
  channelSlug : String
  globalQuantityLimit : Option ℤ := none
  existingLines : List CheckoutLineInfo := []
  replace : Bool := false
  checkReservations : Bool := false

/-- The loop of `check_preorder_threshold_bulk`. -/
def checkPreorderPairs (db : Db) (c : PreorderCheck) (reservations : ℕ → ℤ) (variants : List ℕ) :
    List InsufficientStockData → List (ProductVariant × ℤ) →
      Except PreorderCheckError (List InsufficientStockData)
  | items, [] => .ok items
  | items, (variant, quantity) :: pairs =>
    let cumulativeQuantity :=
      if c.replace then quantity else quantity + existingQuantity c.existingLines variant.pk
    let limits := if 0 < quantity then
      checkQuantityLimitsWithoutUser variant cumulativeQuantity c.globalQuantityLimit else .ok ()
    match limits, variantToChannelListing db c.channelSlug variant.pk with
    | .error e, _ => .error e
    | .ok (), none => .error .keyError
    | .ok (), some l =>
      checkPreorderPairs db c reservations variants
        (items ++ channelItems db reservations variant l quantity
          ++ globalItems db reservations variants variant quantity) pairs

/-- `check_preorder_threshold_bulk`. -/
def checkPreorderThresholdBulk (db : Db) (now : Time) (c : PreorderCheck)
    (variants : List ProductVariant) (quantities : List ℤ) : Except PreorderCheckError Unit :=
  let pks := variants.map (·.pk)
  let reservations := listingsReservations db now c.checkReservations
    (some (c.existingLines.map (·.line))) ((variantsListings db pks).map (·.pk))
  match checkPreorderPairs db c reservations pks [] (variants.zip quantities) with
  | .error e => .error e
  | .ok items => raiseInsufficient items

/-! ### What they are to test -/

/-- **The quantity fits the thresholds** of the variant's listing in the channel and of the variant,
those that are set. -/
def FitsThresholds (db : Db) (channelSlug : String) (variant : ProductVariant) (quantity : ℤ) : Prop :=
  ∃ l, variantToChannelListing db channelSlug variant.pk = some l ∧
    (∀ t, l.preorderQuantityThreshold = some t →
      quantity ≤ max (t - preorderAllocated db l.pk) 0) ∧
    ∀ t, variant.preorderGlobalThreshold = some t →
      quantity ≤ max (t - globalAllocated db variant.pk) 0

/-- What a checkout would have of a variant: what is asked for, and unless it replaces them what its
lines have. -/
def totalQuantity (c : PreorderCheck) (variant : ProductVariant) (quantity : ℤ) : ℤ :=
  if c.replace then quantity
  else quantity + sumIf (fun line => decide (line.variant = variant.pk)) (·.quantity) c.existingLines

/-- The errors that a check may raise. -/
def PreorderCheckError.Permitted : PreorderCheckError → Prop
  | .insufficientStock _ => True
  | .quantityLimit _ => True
  | .keyError => False
  | .typeError => False

/-- A check accepts exactly what is right, and raises nothing else. -/
def CheckedRight (r : Except PreorderCheckError Unit) (right : Prop) : Prop :=
  (r = .ok () ↔ right) ∧ ∀ e, r = .error e → e.Permitted

theorem checkedRight_ok {right : Prop} : CheckedRight (.ok ()) right ↔ right := by
  refine ⟨fun h => h.1.mp rfl, fun h => ⟨iff_of_true rfl h, fun e he => ?_⟩⟩
  cases he

theorem not_checkedRight_error {e : PreorderCheckError} (he : ¬ e.Permitted) {right : Prop} :
    ¬ CheckedRight (.error e) right := fun h => he (h.2 e rfl)

variable {db : Db} {now : Time} {channelSlug : String}

/-! ### The tests of a variant -/

theorem listingsReservations_of_none (h : db.preorderReservations.rows = []) (check : Bool)
    (checkoutLines : Option (List ℕ)) (listingsId : List ℕ) :
    listingsReservations db now check checkoutLines listingsId = fun _ => 0 := by
  funext listing
  rw [listingsReservations, h]
  cases check <;> rfl

theorem channelItems_eq_nil_iff {variant : ProductVariant} {l : ProductVariantChannelListing}
    {quantity : ℤ} :
    channelItems db (fun _ => 0) variant l quantity = [] ↔
      ∀ t, l.preorderQuantityThreshold = some t →
        quantity ≤ max (t - preorderAllocated db l.pk) 0 := by
  rw [channelItems]
  rcases l.preorderQuantityThreshold with _ | t
  · simp
  · simp [availableChannelQuantity]
    omega

/-- The allocations of the listings of a variant are what is allocated of it. -/
theorem globalAvailability_eq {variants : List ℕ} {variant : ℕ} (h : variant ∈ variants)
    (threshold : ℤ) :
    globalAvailability db (fun _ => 0) variants variant threshold
      = max (threshold - globalAllocated db variant) 0 := by
  have hsum : ((variantsListings db [variant]).map fun l => preorderAllocated db l.pk).sum
      = globalAllocated db variant := by
    have hmap : (variantsListings db [variant]).map (fun l => preorderAllocated db l.pk)
        = ((variantsListings db [variant]).map (·.pk)).map (preorderAllocated db) := by
      rw [List.map_map]
      rfl
    rw [hmap]
    exact sum_sumIf_key PreorderAllocation.productVariantChannelListing _
      (nodup_variantsListings [variant]) _
  rw [globalAvailability]
  simp only [filter_variantsListings h, hsum, List.map_const', List.sum_replicate, smul_zero, sub_zero]

theorem globalItems_eq_nil_iff {variants : List ℕ} {variant : ProductVariant}
    (h : variant.pk ∈ variants) {quantity : ℤ} :
    globalItems db (fun _ => 0) variants variant quantity = [] ↔
      ∀ t, variant.preorderGlobalThreshold = some t →
        quantity ≤ max (t - globalAllocated db variant.pk) 0 := by
  rw [globalItems]
  rcases variant.preorderGlobalThreshold with _ | t
  · simp
  · simp [globalAvailability_eq h]
    omega

theorem raiseInsufficient_eq_ok {items : List InsufficientStockData} :
    raiseInsufficient items = .ok () ↔ items = [] := by
  cases items with
  | nil => exact iff_of_true rfl rfl
  | cons item items => exact iff_of_false (by rintro ⟨⟩) (List.cons_ne_nil _ _)

/-- Raising what is insufficient is right just if nothing is where the thresholds are kept. -/
theorem checkedRight_raiseInsufficient {items : List InsufficientStockData} {right : Prop} :
    CheckedRight (raiseInsufficient items) right ↔ (items = [] ↔ right) := by
  rw [CheckedRight, raiseInsufficient_eq_ok]
  refine and_iff_left fun e he => ?_
  cases items with
  | nil => cases he
  | cons item items =>
    obtain rfl := Except.error.inj he
    trivial

/-! ### The allocator -/

/-- `_create_preorder_allocation` makes the allocation if the quantity fits the thresholds. -/
theorem createPreorderAllocation_eq_ok_iff {info : OrderLineInfo} {variant : ProductVariant}
    {data : ℕ × Option ℤ} {globalAllocation : ℤ} {listings : List ℕ} {allocated reserved : ℕ → ℤ}
    {a : UnsavedPreorderAllocation} :
    createPreorderAllocation info variant data globalAllocation listings allocated reserved = .ok a ↔
      a = ⟨info.line, data.1, info.quantity⟩ ∧
      (∀ t, data.2 = some t →
        info.quantity ≤ availability t (allocated data.1) (reserved data.1)) ∧
      ∀ t, variant.preorderGlobalThreshold = some t →
        info.quantity ≤ availability t globalAllocation (listings.map reserved).sum := by
  refine ⟨createPreorderAllocation_eq_ok, ?_⟩
  rintro ⟨rfl, hchannel, hall⟩
  have hnone : ∀ {threshold : Option ℤ} {available : ℤ → ℤ},
      (∀ t, threshold = some t → info.quantity ≤ available t) →
        (threshold.map available).filter (· < info.quantity) = none := by
    rintro (_ | t) available h
    · rfl
    · simpa using h t rfl
  rw [createPreorderAllocation]
  simp only [hnone hchannel, hnone hall]

/-- **The allocator accepts what fits**: a new line of a variant in preorder. -/
theorem allocatePreorders_one_iff (hnone : db.preorderReservations.rows = [])
    {variant : ProductVariant} (hactive : variant.isPreorderActive now = true) {line : ℕ} {quantity : ℤ}
    (hquantity : 0 ≤ quantity) (hline : ∀ a ∈ db.preorderAllocations, a.orderLine ≠ line)
    (check : Bool) (checkoutLines : Option (List ℕ)) :
    (∃ db', allocatePreorders [{ line, quantity, variant := some variant }] channelSlug check
        checkoutLines now db = .ok db') ↔ FitsThresholds db channelSlug variant quantity := by
  have hinfos : getOrderLinesWithPreorder now [{ line, quantity, variant := some variant }]
      = [{ line, quantity, variant := some variant }] := by
    simp [getOrderLinesWithPreorder, hactive]
  rw [allocatePreorders]
  simp only [hinfos, List.filterMap_cons, List.filterMap_nil, Option.map_some]
  rcases hlisting : variantToChannelListing db channelSlug variant.pk with _ | l
  · refine iff_of_false ?_ ?_
    · rintro ⟨db', hok⟩
      simp [createPreorderAllocations, createFor, hlisting] at hok
    · rintro ⟨l, hl, -⟩
      cases hlisting.symm.trans hl
  have hmem : variant.pk ∈ [variant.pk] := List.mem_cons_self
  have hkey : l.pk ∈ (variantsListings db [variant.pk]).map (·.pk) :=
    List.mem_map_of_mem (mem_variantsListings.mpr (variantToChannelListing_eq_some hlisting))
  have hfits : FitsThresholds db channelSlug variant quantity ↔ ∃ a,
      createFor db now channelSlug check checkoutLines [variant.pk]
        { line, quantity, variant := some variant } = .ok (.ok a) ∧ a = ⟨line, l.pk, quantity⟩ := by
    simp only [createFor, hlisting, Except.ok.injEq, createPreorderAllocation_eq_ok_iff,
      listingsReservations_of_none hnone, filter_variantsListings hmem,
      sum_quantityAllocationForChannel hmem, quantityAllocationForChannel_eq hkey, availability,
      List.map_const', List.sum_replicate, smul_zero, sub_zero]
    constructor
    · rintro ⟨l', hl', hchannel, hall⟩
      obtain rfl := Option.some.inj (hlisting.symm.trans hl')
      exact ⟨_, ⟨rfl, hchannel, hall⟩, rfl⟩
    · rintro ⟨a, ⟨-, hchannel, hall⟩, -⟩
      exact ⟨l, hlisting, hchannel, hall⟩
  rw [hfits]
  rcases hcreate : createFor db now channelSlug check checkoutLines [variant.pk]
    { line, quantity, variant := some variant } with e | item | a
  · refine iff_of_false ?_ ?_
    · rintro ⟨db', hok⟩
      simp [createPreorderAllocations, hcreate] at hok
    · rintro ⟨a, ha, -⟩
      cases ha
  · refine iff_of_false ?_ ?_
    · rintro ⟨db', hok⟩
      simp [createPreorderAllocations, hcreate] at hok
    · rintro ⟨a, ha, -⟩
      cases ha
  · have ha : a = ⟨line, l.pk, quantity⟩ := by
      simp only [createFor, hlisting, Except.ok.injEq] at hcreate
      exact (createPreorderAllocation_eq_ok hcreate).1
    obtain rfl := ha
    refine iff_of_true ?_ ⟨_, rfl, rfl⟩
    have hrow : (⟨line, l.pk, quantity⟩ : UnsavedPreorderAllocation).row?
        = some ⟨line, quantity.toNat, l.pk⟩ := if_pos hquantity
    have hinsert : (db.preorderAllocations.insertAll [⟨line, quantity.toNat, l.pk⟩]).isSome := by
      refine Table.insertAll_isSome_iff.mpr ⟨List.nodup_singleton _, fun r hr b hb hkey => ?_⟩
      obtain rfl := List.mem_singleton.mp hr
      exact hline b hb (Prod.mk.inj hkey).1
    obtain ⟨table, htable⟩ := Option.isSome_iff_exists.mp hinsert
    refine ⟨{ db with preorderAllocations := table }, ?_⟩
    simp only [createPreorderAllocations, hcreate, bulkCreatePreorderAllocations, List.mapM_cons,
      List.mapM_nil, hrow]
    simp [htable]

/-! ### The check of an order's line -/

/-- **The check of an order's line is right** where the listing has a threshold, or the global one is
not exceeded. -/
theorem checkedRight_inOrders_iff (hnone : db.preorderReservations.rows = [])
    (variant : ProductVariant) (quantity : ℤ) (checkoutLines : Option (List ℕ)) (check : Bool) :
    CheckedRight
        (checkPreorderThresholdInOrders db now variant quantity channelSlug checkoutLines check)
        (FitsThresholds db channelSlug variant quantity) ↔
      ∃ l, variantToChannelListing db channelSlug variant.pk = some l ∧
        (l.preorderQuantityThreshold = none → ∀ t, variant.preorderGlobalThreshold = some t →
          quantity ≤ max (t - globalAllocated db variant.pk) 0) := by
  rw [checkPreorderThresholdInOrders]
  rcases hlisting : variantToChannelListing db channelSlug variant.pk with _ | l
  · refine iff_of_false (not_checkedRight_error id) ?_
    rintro ⟨l, hl, -⟩
    cases hl
  simp only [listingsReservations_of_none hnone, checkedRight_raiseInsufficient]
  have hfits : FitsThresholds db channelSlug variant quantity ↔
      channelItems db (fun _ => 0) variant l quantity = [] ∧
        globalItems db (fun _ => 0) [variant.pk] variant quantity = [] := by
    rw [FitsThresholds, hlisting, channelItems_eq_nil_iff, globalItems_eq_nil_iff List.mem_cons_self]
    simp
  rw [hfits, ← globalItems_eq_nil_iff (List.mem_cons_self (a := variant.pk) (l := []))]
  simp only [Option.some.injEq, exists_eq_left']
  rcases hthreshold : l.preorderQuantityThreshold with _ | t
  · have hchannel : channelItems db (fun _ => 0) variant l quantity = [] := by
      rw [channelItems, hthreshold]
    simp [hchannel]
  · simp

/-! ### The check of a checkout's lines -/

/-- A round of the loop goes on if nothing is asked for and the variant has a listing. -/
def GoesOn (db : Db) (c : PreorderCheck) (p : ProductVariant × ℤ) : Prop :=
  p.2 ≤ 0 ∧ (variantToChannelListing db c.channelSlug p.1.pk).isSome

theorem channelItems_of_nonpos {reservations : ℕ → ℤ} {variant : ProductVariant}
    {l : ProductVariantChannelListing} {quantity : ℤ} (h : quantity ≤ 0) :
    channelItems db reservations variant l quantity = [] := by
  rw [channelItems]
  split
  · rfl
  · exact if_neg (not_lt.mpr (h.trans (le_max_right _ _)))

theorem globalItems_of_nonpos {reservations : ℕ → ℤ} {variants : List ℕ}
    {variant : ProductVariant} {quantity : ℤ} (h : quantity ≤ 0) :
    globalItems db reservations variants variant quantity = [] := by
  rw [globalItems]
  split
  · rfl
  · exact if_neg (not_lt.mpr (h.trans (le_max_right _ _)))

theorem checkPreorderPairs_cons_of_goesOn {c : PreorderCheck} {reservations : ℕ → ℤ}
    {variants : List ℕ} {p : ProductVariant × ℤ} (hp : GoesOn db c p)
    (items : List InsufficientStockData) (pairs : List (ProductVariant × ℤ)) :
    checkPreorderPairs db c reservations variants items (p :: pairs)
      = checkPreorderPairs db c reservations variants items pairs := by
  obtain ⟨variant, quantity⟩ := p
  obtain ⟨hquantity, hlisting⟩ := hp
  obtain ⟨l, hl⟩ := Option.isSome_iff_exists.mp hlisting
  rw [checkPreorderPairs, if_neg (not_lt.mpr hquantity)]
  simp only [hl, channelItems_of_nonpos hquantity, globalItems_of_nonpos hquantity,
    List.append_nil]

theorem checkPreorderPairs_cons_of_not_goesOn {c : PreorderCheck} {reservations : ℕ → ℤ}
    {variants : List ℕ} {p : ProductVariant × ℤ} (hp : ¬ GoesOn db c p)
    (items : List InsufficientStockData) (pairs : List (ProductVariant × ℤ)) :
    ∃ e, checkPreorderPairs db c reservations variants items (p :: pairs) = .error e ∧
      ¬ e.Permitted := by
  obtain ⟨variant, quantity⟩ := p
  rw [checkPreorderPairs]
  by_cases hquantity : 0 < quantity
  · rw [if_pos hquantity]
    exact ⟨.typeError, rfl, id⟩
  · rw [if_neg hquantity]
    rcases hl : variantToChannelListing db c.channelSlug variant.pk with _ | l
    · exact ⟨.keyError, rfl, id⟩
    · refine absurd ⟨not_lt.mp hquantity, ?_⟩ hp
      rw [hl]
      rfl

/-- **The loop** appends nothing if every round goes on, and fails if one does not. -/
theorem checkPreorderPairs_cases {c : PreorderCheck} {reservations : ℕ → ℤ} {variants : List ℕ}
    (pairs : List (ProductVariant × ℤ)) (items : List InsufficientStockData) :
    ((∀ p ∈ pairs, GoesOn db c p) ∧
        checkPreorderPairs db c reservations variants items pairs = .ok items) ∨
      (¬ (∀ p ∈ pairs, GoesOn db c p) ∧ ∃ e,
        checkPreorderPairs db c reservations variants items pairs = .error e ∧ ¬ e.Permitted) := by
  induction pairs with
  | nil => exact .inl ⟨fun p hp => absurd hp List.not_mem_nil, rfl⟩
  | cons p pairs ih =>
    rw [List.forall_mem_cons]
    by_cases hgo : GoesOn db c p
    · rw [checkPreorderPairs_cons_of_goesOn hgo]
      rcases ih with ⟨hall, hloop⟩ | ⟨hnot, hloop⟩
      · exact .inl ⟨⟨hgo, hall⟩, hloop⟩
      · exact .inr ⟨fun h => hnot h.2, hloop⟩
    · exact .inr ⟨fun h => hgo h.1, checkPreorderPairs_cons_of_not_goesOn hgo _ _⟩

/-- **The check of a checkout's lines is right** where nothing is asked for that would have to fit. -/
theorem checkedRight_bulk_iff (c : PreorderCheck) (variants : List ProductVariant)
    (quantities : List ℤ) :
    CheckedRight (checkPreorderThresholdBulk db now c variants quantities)
        (∀ p ∈ variants.zip quantities,
          FitsThresholds db c.channelSlug p.1 (totalQuantity c p.1 p.2)) ↔
      ∀ p ∈ variants.zip quantities,
        p.2 ≤ 0 ∧ FitsThresholds db c.channelSlug p.1 (totalQuantity c p.1 p.2) := by
  rw [checkPreorderThresholdBulk]
  rcases checkPreorderPairs_cases (variants.zip quantities) [] with
    ⟨hall, hloop⟩ | ⟨hnot, e, hloop, he⟩
  · rw [hloop]
    refine checkedRight_ok.trans ⟨fun h p hp => ⟨(hall p hp).1, h p hp⟩, fun h p hp => (h p hp).2⟩
  · rw [hloop]
    refine iff_of_false (not_checkedRight_error he) fun h => hnot fun p hp => ⟨(h p hp).1, ?_⟩
    obtain ⟨l, hl, -⟩ := (h p hp).2
    rw [hl]
    rfl

/-- **The three tests of the thresholds**: the allocator accepts what fits; the check of an order's
line is right unless the listing has no threshold and the global one is exceeded; and the check of a
checkout's lines is right only where nothing more is asked for. -/
theorem preorderChecks_iff (hnone : db.preorderReservations.rows = []) (now : Time)
    (channelSlug : String) (check : Bool) (checkoutLines : Option (List ℕ)) :
    (∀ (variant : ProductVariant) (line : ℕ) (quantity : ℤ), variant.isPreorderActive now = true →
      0 ≤ quantity → (∀ a ∈ db.preorderAllocations, a.orderLine ≠ line) →
        ((∃ db', allocatePreorders [{ line, quantity, variant := some variant }] channelSlug check
            checkoutLines now db = .ok db') ↔ FitsThresholds db channelSlug variant quantity)) ∧
      (∀ (variant : ProductVariant) (quantity : ℤ),
        (CheckedRight
            (checkPreorderThresholdInOrders db now variant quantity channelSlug checkoutLines check)
            (FitsThresholds db channelSlug variant quantity) ↔
          ∃ l, variantToChannelListing db channelSlug variant.pk = some l ∧
            (l.preorderQuantityThreshold = none → ∀ t, variant.preorderGlobalThreshold = some t →
              quantity ≤ max (t - globalAllocated db variant.pk) 0))) ∧
      ∀ (c : PreorderCheck) (variants : List ProductVariant) (quantities : List ℤ),
        (CheckedRight (checkPreorderThresholdBulk db now c variants quantities)
            (∀ p ∈ variants.zip quantities,
              FitsThresholds db c.channelSlug p.1 (totalQuantity c p.1 p.2)) ↔
          ∀ p ∈ variants.zip quantities,
            p.2 ≤ 0 ∧ FitsThresholds db c.channelSlug p.1 (totalQuantity c p.1 p.2)) :=
  ⟨fun _ _ _ hactive hquantity hline =>
      allocatePreorders_one_iff hnone hactive hquantity hline check checkoutLines,
    fun variant quantity => checkedRight_inOrders_iff hnone variant quantity checkoutLines check,
    fun c variants quantities => checkedRight_bulk_iff c variants quantities⟩

/-- A variant in preorder with room for ten. -/
def tenLeft : Db where
  channels := Table.singleton { pk := 1, slug := "shop" }
  variants := Table.singleton { pk := 1, isPreorder := true, preorderGlobalThreshold := some 10 }
  channelListings := Table.singleton { pk := 1, variant := 1, channel := 1 }

/-- **One item of ten is refused** by the check of a checkout's lines, and eleven are accepted by that
of an order's line. -/
theorem preorderChecks_not_always :
    ¬ (∀ (db : Db) (now : Time) (c : PreorderCheck) (variants : List ProductVariant)
        (quantities : List ℤ), db.preorderReservations.rows = [] →
        CheckedRight (checkPreorderThresholdBulk db now c variants quantities)
          (∀ p ∈ variants.zip quantities,
            FitsThresholds db c.channelSlug p.1 (totalQuantity c p.1 p.2))) ∧
      ¬ ∀ (db : Db) (now : Time) (variant : ProductVariant) (quantity : ℤ) (channelSlug : String),
        db.preorderReservations.rows = [] →
        CheckedRight (checkPreorderThresholdInOrders db now variant quantity channelSlug none false)
          (FitsThresholds db channelSlug variant quantity) := by
  constructor
  · intro h
    have hone := (h tenLeft 0 { channelSlug := "shop" }
      [{ pk := 1, isPreorder := true, preorderGlobalThreshold := some 10 }] [1] rfl).2 .typeError (by rfl)
    exact hone
  · intro h
    have heleven := (h tenLeft 0 { pk := 1, isPreorder := true, preorderGlobalThreshold := some 10 } 11
      "shop" rfl).1.mp (by rfl)
    obtain ⟨l, -, -, hglobal⟩ := heleven
    exact absurd (hglobal 10 rfl) (by decide)

/-- Where no quantity has to fit, all three are right. -/
theorem preorderChecks_tenLeft :
    CheckedRight (checkPreorderThresholdInOrders tenLeft 0
        { pk := 1, isPreorder := true, preorderGlobalThreshold := some 10 } 4 "shop" none false)
      (FitsThresholds tenLeft "shop"
        { pk := 1, isPreorder := true, preorderGlobalThreshold := some 10 } 4) := by
  refine ((@preorderChecks_iff tenLeft rfl 0 "shop" false none).2.1 _ 4).mpr
    ⟨{ pk := 1, variant := 1, channel := 1 }, by rfl, fun _ t ht => ?_⟩
  obtain rfl := Option.some.inj ht
  decide

end Stocks

end Aixinwu
