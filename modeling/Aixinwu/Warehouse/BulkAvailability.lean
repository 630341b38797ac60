import Aixinwu.Warehouse.Availability

/-!
# The stocks of a checkout that is completed

`check_stock_quantity_bulk` as completing a checkout calls it: the quantities are those of all of
its lines, and reservations are respected. What it should find out is whether the lines can be
served together from what is neither allocated nor held for somebody else.

It compares each line on its own, so the lines of a variant that is in the checkout twice may pass
one by one. And it subtracts every reservation row of the stocks, those that have expired and those
the checkout itself holds.

## Main definitions

* `heldOf`, `blocks`, `freeQuantity`, `requestedOf`
* `Short` — the lines cannot be served
* `Overlooked`, `HeldUp` — the two ways to miss that

## Main results

* `getReservedStockQuantityBulk_eq` — what the map of reservations has for a variant
* `raises_iff_short_iff` — when the check is exact
-/

namespace Aixinwu

namespace Stocks

/-! ### The map of reservations -/

section Reserved

variable (db : Db) {stocks : List Stock}

/-- The loop over the groups adds to the variants of the stocks. -/
theorem foldl_addToVariant (groups : List (ℕ × ℤ)) (reservations : ℕ → ℤ) (variant : ℕ) :
    groups.foldl (addToVariant stocks) reservations variant
      = reservations variant
        + sumIf (fun e : ℕ × ℤ => (stocks.find? (·.pk = e.1)).any (·.productVariant = variant))
          (·.2) groups := by
  induction groups generalizing reservations with
  | nil => rw [List.foldl_nil, sumIf_nil, add_zero]
  | cons e groups ih =>
    rw [List.foldl_cons, ih, sumIf_cons, ← add_assoc, addToVariant]
    congr 1
    cases stocks.find? (·.pk = e.1) with
    | none => simp
    | some s =>
      by_cases hvariant : s.productVariant = variant
      · simp [hvariant]
      · simp [hvariant, Function.update_of_ne (Ne.symm hvariant)]

/-- The stock that is found is of a variant if its key is that of one of the variant's stocks. -/
theorem any_find?_iff (hstocks : (stocks.map (·.pk)).Nodup) (k variant : ℕ) :
    (stocks.find? (·.pk = k)).any (·.productVariant = variant) = true
      ↔ k ∈ (stocks.filter (·.productVariant = variant)).map (·.pk) := by
  rw [Option.any_eq_true, List.mem_map]
  constructor
  · rintro ⟨s, hfind, hvariant⟩
    have hpk : s.pk = k := by simpa using List.find?_some hfind
    exact ⟨s, List.mem_filter.mpr ⟨List.mem_of_find?_eq_some hfind, hvariant⟩, hpk⟩
  · rintro ⟨s, hs, rfl⟩
    obtain ⟨hmem, hvariant⟩ := List.mem_filter.mp hs
    obtain ⟨s', hfind⟩ := Option.isSome_iff_exists.mp
      (List.find?_isSome.mpr ⟨s, hmem, decide_eq_true rfl⟩ :
        (stocks.find? (·.pk = s.pk)).isSome = true)
    have hpk : s'.pk = s.pk := by simpa using List.find?_some hfind
    obtain rfl : s' = s :=
      List.inj_on_of_nodup_map hstocks (List.mem_of_find?_eq_some hfind) hmem hpk
    exact ⟨s', hfind, hvariant⟩

/-- The items of some stocks that are held by the reservations with a property. -/
def heldOf (db : Db) (p : Reservation → Bool) (stocks : List Stock) : ℤ :=
  sumIf (fun r => decide (r.stock ∈ stocks.map (·.pk)) && p r)
    (fun r : Reservation => (r.quantityReserved : ℤ)) db.reservations.rows

/-- **The map of reservations** has for a variant what all reservations of its stocks hold. -/
theorem getReservedStockQuantityBulk_eq (hstocks : (stocks.map (·.pk)).Nodup) (variant : ℕ) :
    getReservedStockQuantityBulk db stocks variant
      = heldOf db (fun _ => true) (stocks.filter (·.productVariant = variant)) := by
  rw [getReservedStockQuantityBulk, foldl_addToVariant, zero_add, reservedByStock,
    sumIf_map, sumIf]
  have hkeys := (List.nodup_dedup ((db.reservations.rows.filter fun r =>
    decide (r.stock ∈ stocks.map (·.pk))).map (·.stock))).filter
      ((fun e : ℕ × ℤ => (stocks.find? (·.pk = e.1)).any (·.productVariant = variant)) ∘
        fun stock => (stock, sumIf (fun r => decide (r.stock = stock))
          (fun r : Reservation => (r.quantityReserved : ℤ))
          (db.reservations.rows.filter fun r => decide (r.stock ∈ stocks.map (·.pk)))))
  have hgroups := sum_sumIf_key (fun r : Reservation => r.stock)
    (fun r : Reservation => (r.quantityReserved : ℤ)) hkeys
    (db.reservations.rows.filter fun r => decide (r.stock ∈ stocks.map (·.pk)))
  refine hgroups.trans ?_
  rw [heldOf, sumIf_filter]
  refine sumIf_congr (fun r hr => ?_) fun _ _ _ => rfl
  rw [Bool.and_true, Bool.eq_iff_iff, Bool.and_eq_true, decide_eq_true_iff, decide_eq_true_iff,
    decide_eq_true_iff, List.mem_filter, ← any_find?_iff hstocks]
  constructor
  · exact fun h => h.1.2
  · intro h
    have hmem : r.stock ∈ stocks.map (·.pk) :=
      (List.filter_sublist.map Stock.pk).subset ((any_find?_iff hstocks _ _).mp h)
    refine ⟨⟨List.mem_dedup.mpr (List.mem_map_of_mem (List.mem_filter.mpr ⟨hr, ?_⟩)), h⟩, hmem⟩
    exact decide_eq_true hmem

end Reserved

/-! ### What is free -/

section Free

/-- A reservation that a checkout has to respect: it has not expired and is of another line. -/
def blocks (now : Time) (checkoutLines : List ℕ) (r : Reservation) : Bool :=
  decide (now < r.reservedUntil) && notOfCheckoutLines checkoutLines r

/-- The items of the variants' stocks that are not allocated. -/
def unallocated (c : StockCheck) (db : Store) (variants : List Variant) (variant : ℕ) : ℤ :=
  ((c.variantStocks db variants variant).map fun s => s.quantity - allocatedOf db.toDb s).sum

/-- What is left of a variant for a checkout. -/
def freeQuantity (c : StockCheck) (db : Store) (now : Time) (variants : List Variant)
    (variant : ℕ) : ℤ :=
  max (unallocated c db variants variant
    - heldOf db.toDb (blocks now (c.existingLines.map (·.line)))
      (c.variantStocks db variants variant)) 0

/-- What is left of a variant when no reservation is respected less than another. -/
def unheldQuantity (c : StockCheck) (db : Store) (variants : List Variant) (variant : ℕ) : ℤ :=
  max (unallocated c db variants variant
    - heldOf db.toDb (fun _ => true) (c.variantStocks db variants variant)) 0

/-- What is asked for of a variant, by all of its lines. -/
def requestedOf (pairs : List (Variant × ℤ)) (variant : ℕ) : ℤ :=
  sumIf (fun p => decide (p.1.pk = variant)) (·.2) pairs

variable (c : StockCheck) (db : Store) (now : Time) (variants : List Variant)

/-- The check compares with what no reservation holds. -/
theorem availableQuantity_eq (h : c.checkReservations = true) (variant : ℕ) :
    c.availableQuantity db variants variant = unheldQuantity c db variants variant := by
  have hstocks : ((c.allVariantsStocks db variants).map (·.pk)).Nodup :=
    (List.filter_sublist.map _).nodup db.stocks.nodup
  rw [StockCheck.availableQuantity, StockCheck.variantReservations, if_pos h,
    getReservedStockQuantityBulk_eq db.toDb hstocks, funext (annotateAvailableQuantity_eq db.toDb)]
  rfl

theorem unheldQuantity_nonneg (variant : ℕ) : 0 ≤ unheldQuantity c db variants variant :=
  le_max_right _ _

end Free

/-! ### Whether the check is exact -/

section Exact

variable (c : StockCheck) (db : Store) (now : Time) (variants : List Variant) (quantities : List ℤ)

/-- A variant is asked for that has no stock. -/
def LacksStock : Prop :=
  ∃ p ∈ variants.zip quantities, 0 < p.2 ∧ c.variantStocks db variants p.1.pk = []

/-- More is asked for of a tracked variant, by all of its lines, than is free. -/
def Overdrawn : Prop :=
  ∃ p ∈ variants.zip quantities, p.1.trackInventory = true ∧
    freeQuantity c db now variants p.1.pk < requestedOf (variants.zip quantities) p.1.pk

instance : Decidable (LacksStock c db variants quantities) :=
  inferInstanceAs (Decidable (∃ p ∈ variants.zip quantities, 0 < p.2 ∧ _))

instance : Decidable (Overdrawn c db now variants quantities) :=
  inferInstanceAs (Decidable (∃ p ∈ variants.zip quantities, p.1.trackInventory = true ∧ _))

/-- The lines cannot be served. -/
def Short : Prop :=
  Overdrawn c db now variants quantities ∨ LacksStock c db variants quantities

/-- A line of a tracked variant asks for more than no reservation holds. -/
def LineOverUnheld : Prop :=
  ∃ p ∈ variants.zip quantities, p.1.trackInventory = true ∧
    unheldQuantity c db variants p.1.pk < p.2

/-- The lines together ask for too much, and each of them for little enough. -/
def Overlooked : Prop :=
  ¬ LacksStock c db variants quantities ∧ Overdrawn c db now variants quantities ∧
    ¬ LineOverUnheld c db variants quantities

/-- The lines can be served, and one is held up by reservations that are over or its own. -/
def HeldUp : Prop :=
  ¬ LacksStock c db variants quantities ∧ ¬ Overdrawn c db now variants quantities ∧
    LineOverUnheld c db variants quantities

variable {c db now variants quantities}

/-- What the check finds out. -/
theorem raises_iff (hreplace : c.replace = true) (hreservations : c.checkReservations = true)
    (hlimits : c.WithinLimits db (variants.zip quantities)) :
    RaisesInsufficientStock c db variants quantities
      ↔ LacksStock c db variants quantities ∨ LineOverUnheld c db variants quantities := by
  have heffective : ∀ p : Variant × ℤ, c.effectiveQuantity p.1 p.2 = p.2 := by
    intro p
    rw [StockCheck.effectiveQuantity, if_pos hreplace]
  rw [raisesInsufficientStock_iff hlimits]
  simp only [heffective, availableQuantity_eq c db variants hreservations]
  constructor
  · rintro ⟨p, hp, hpos, hnone | ⟨htracked, hmore⟩⟩
    · exact Or.inl ⟨p, hp, hpos, hnone⟩
    · exact Or.inr ⟨p, hp, htracked, hmore⟩
  · rintro (⟨p, hp, hpos, hnone⟩ | ⟨p, hp, htracked, hmore⟩)
    · exact ⟨p, hp, hpos, Or.inl hnone⟩
    · have hpos : 0 < p.2 := (unheldQuantity_nonneg c db variants p.1.pk).trans_lt hmore
      exact ⟨p, hp, hpos, Or.inr ⟨htracked, hmore⟩⟩

/-- **The check is exact** unless lines that are too much together pass one by one, or one that can
be served is held up. -/
theorem raises_iff_short_iff (hreplace : c.replace = true)
    (hreservations : c.checkReservations = true)
    (hlimits : c.WithinLimits db (variants.zip quantities)) :
    (RaisesInsufficientStock c db variants quantities ↔ Short c db now variants quantities)
      ↔ ¬ Overlooked c db now variants quantities ∧ ¬ HeldUp c db now variants quantities := by
  rw [raises_iff hreplace hreservations hlimits, Short, Overlooked, HeldUp]
  tauto

end Exact

/-! ### Three items in a warehouse -/

/-- A warehouse of a channel with three items of a variant, and reservations of it. -/
def threeItems (reservations : Reservations) : Store where
  channels := .singleton { pk := 1, slug := "main" }
  channelWarehouses := .singleton { pk := 1, channel := 1, warehouse := 1 }
  warehouses := .singleton { pk := 1, shippingZones := [1] }
  shippingZones := .singleton { pk := 1, countries := ["PL"], channels := [1] }
  stocks := .singleton { pk := 1, warehouse := 1, productVariant := 1, quantity := 3 }
  reservations := reservations

/-- The check of a checkout with two lines. -/
def checkoutCheck : StockCheck where
  countryCode := "PL"
  channelSlug := "main"
  deliveryMethodInfo := some { hasDeliveryMethod := true }
  existingLines := [{ line := 1, variant := 1, quantity := 2 },
    { line := 2, variant := 1, quantity := 2 }]
  replace := true

/-- The first line of the checkout holds two items until the time 10. -/
def twoHeld : Reservations :=
  ⟨[{ checkoutLine := some 1, stock := 1, quantityReserved := 2, reservedUntil := 10 }], by decide⟩

/-- Somebody else's line held two items until the time 10. -/
def twoHeldElsewhere : Reservations :=
  ⟨[{ checkoutLine := some 9, stock := 1, quantityReserved := 2, reservedUntil := 10 }], by decide⟩

theorem withinLimits_checkoutCheck (reservations : Reservations) (pairs : List (Variant × ℤ))
    (h : ∀ p ∈ pairs, p.1.quantityLimitPerCustomer = none) :
    checkoutCheck.WithinLimits (threeItems reservations) pairs := by
  intro p hp _
  refine not_exceedsLimit_of_none ?_
  rw [quantityLimit, h p hp]
  rfl

/-- A line of two items of the three is checked right. -/
theorem raises_iff_short_threeItems :
    RaisesInsufficientStock checkoutCheck (threeItems .empty) [{ pk := 1 }] [2]
      ↔ Short checkoutCheck (threeItems .empty) 0 [{ pk := 1 }] [2] := by
  have hlimits := withinLimits_checkoutCheck .empty ([{ pk := 1 }].zip [2]) (by decide)
  refine (raises_iff_short_iff rfl rfl hlimits).mpr ⟨?_, ?_⟩
  · rintro ⟨-, ⟨p, hp, -, hover⟩, -⟩
    obtain rfl := List.mem_singleton.mp hp
    exact absurd hover (by decide)
  · rintro ⟨-, -, p, hp, -, hmore⟩
    obtain rfl := List.mem_singleton.mp hp
    exact absurd hmore (by decide)

/-- Two lines of two items pass. A line of two items is held up by its own reservation, and by one
of somebody else that is over. -/
theorem not_raises_iff_short_threeItems :
    ¬ (RaisesInsufficientStock checkoutCheck (threeItems .empty) [{ pk := 1 }, { pk := 1 }] [2, 2]
      ↔ Short checkoutCheck (threeItems .empty) 0 [{ pk := 1 }, { pk := 1 }] [2, 2]) ∧
    ¬ (RaisesInsufficientStock checkoutCheck (threeItems twoHeld) [{ pk := 1 }] [2]
      ↔ Short checkoutCheck (threeItems twoHeld) 0 [{ pk := 1 }] [2]) ∧
    ¬ (RaisesInsufficientStock checkoutCheck (threeItems twoHeldElsewhere) [{ pk := 1 }] [2]
      ↔ Short checkoutCheck (threeItems twoHeldElsewhere) 20 [{ pk := 1 }] [2]) := by
  refine ⟨fun h => ?_, fun h => ?_, fun h => ?_⟩
  · have hshort : Short checkoutCheck (threeItems .empty) 0 [{ pk := 1 }, { pk := 1 }] [2, 2] :=
      Or.inl (by decide)
    obtain ⟨items, hraises⟩ := h.mpr hshort
    cases hraises
  · rcases h.mp ⟨_, rfl⟩ with hover | hnone
    · exact absurd hover (by decide)
    · exact absurd hnone (by decide)
  · rcases h.mp ⟨_, rfl⟩ with hover | hnone
    · exact absurd hover (by decide)
    · exact absurd hnone (by decide)

end Stocks

end Aixinwu
