import Aixinwu.Lib.Aggregates
import Aixinwu.Warehouse.Models

/-!
# Limits per customer

`variant_quantity_allowed` and `_check_quantity_limits` of `saleor/warehouse/availability.py`. A
variant, or the site, may limit how many items of a variant a customer buys. What a customer has
bought is what the lines of their orders hold, except for orders that were canceled, refunded or
have expired.

The remaining allowance is a difference, and `-1` stands for no limit. The difference becomes
negative when a limit is lowered after a purchase, or when something is ordered past the check, and
of the negative allowances just `-1` lets everything pass.

## Main definitions

* `Variant`, `PlacedOrder`, `PlacedLine`, `Purchases`
* `accumulated`, `quantityLimit`, `variantQuantityAllowed`, `checkQuantityLimits`
* `bought` — what the orders of a user hold of a variant

## Main results

* `accumulated_eq_bought`
* `checkQuantityLimits_error_iff` — when the check raises
* `limitEnforced_iff` — when the check enforces the limit
-/

namespace Aixinwu

namespace Stocks

/-! ### The rows -/

/-- `product.models.ProductVariant`, with what the checks of availability read besides. -/
structure Variant extends ProductVariant where
  product : ℕ := 0
  name : String := ""
  sku : Option String := none
  quantityLimitPerCustomer : Option ℤ := none
deriving DecidableEq, Repr

instance : HasPk Variant ℕ := ⟨fun v => v.pk⟩

/-- `ProductVariant.__str__`. -/
def Variant.str (v : Variant) : String :=
  if v.name ≠ "" then v.name
  else match v.sku with
    | some sku => if sku ≠ "" then sku else "ID:" ++ toString v.pk
    | none => "ID:" ++ toString v.pk

/-- `order.models.Order`, as far as the limits read it. -/
structure PlacedOrder where
  pk : ℕ
  user : Option ℕ := none
  status : OrderStatus := .unfulfilled
deriving DecidableEq, Repr

instance : HasPk PlacedOrder ℕ := ⟨PlacedOrder.pk⟩

/-- `order.models.OrderLine`, as far as the limits read it. -/
structure PlacedLine where
  pk : ℕ
  order : ℕ
  variant : Option ℕ := none
  quantity : ℤ
deriving DecidableEq, Repr

instance : HasPk PlacedLine ℕ := ⟨PlacedLine.pk⟩

/-- The orders, and their lines. -/
structure Purchases where
  orders : Table PlacedOrder := .empty
  lines : Table PlacedLine := .empty

/-! ### What is allowed -/

/-- The lines of a user's orders that are about a variant and count. A user that is `None` has the
orders without one. -/
def countedLines (db : Purchases) (user : Option ℕ) (variant : ℕ) : List PlacedLine :=
  db.lines.rows.filter fun line =>
    (db.orders.find? line.order).any (fun order =>
      order.status ∉ [OrderStatus.canceled, .refunded, .expired] && order.user = user)
      && line.variant = some variant

/-- What is accumulated in the loop over the lines. -/
def accumulated (db : Purchases) (user : Option ℕ) (variant : ℕ) : ℤ :=
  (countedLines db user variant).foldl (fun accumulated line => accumulated + line.quantity) 0

/-- `variant.quantity_limit_per_customer or global_quantity_limit`, if it is true: neither `None`
nor `0`. -/
def quantityLimit (variant : Variant) (globalQuantityLimit : Option ℤ) : Option ℤ :=
  match variant.quantityLimitPerCustomer.filter (· ≠ 0) with
  | some limit => some limit
  | none => globalQuantityLimit.filter (· ≠ 0)

/-- `variant_quantity_allowed`. -/
def variantQuantityAllowed (db : Purchases) (user : Option ℕ) (variant : Variant)
    (globalQuantityLimit : Option ℤ) : ℤ :=
  match quantityLimit variant globalQuantityLimit with
  | some limit => limit - accumulated db user variant.pk
  -- no limit on purchase
  | none => -1

/-- The `ValidationError` of a limit. -/
structure QuantityLimitError where
  field : String
  message : String
  code : String
deriving DecidableEq, Repr

/-- What is raised for a quantity that is not allowed. -/
def quantityLimitError (variant : Variant) (quantityAllowed : ℤ) : QuantityLimitError where
  field := "quantity"
  message := "Cannot add more than " ++ toString quantityAllowed ++ " times this item: "
    ++ variant.str ++ "."
  code := "quantity_greater_than_limit"

/-- `_check_quantity_limits`. -/
def checkQuantityLimits (db : Purchases) (user : Option ℕ) (variant : Variant) (quantity : ℤ)
    (globalQuantityLimit : Option ℤ) : Except QuantityLimitError Unit :=
  let quantityAllowed := variantQuantityAllowed db user variant globalQuantityLimit
  if quantityAllowed ≠ -1 ∧ quantity > quantityAllowed then
    .error (quantityLimitError variant quantityAllowed)
  else .ok ()

/-! ### What a user has bought -/

/-- Whether an order of the user counts. -/
def PlacedOrder.counts (user : Option ℕ) (order : PlacedOrder) : Bool :=
  order.status ∉ [OrderStatus.canceled, .refunded, .expired] && order.user = user

/-- The items of a variant that the orders of a user hold, order by order. -/
def bought (db : Purchases) (user : Option ℕ) (variant : ℕ) : ℤ :=
  ((db.orders.rows.filter (PlacedOrder.counts user)).map fun order =>
    sumIf (fun line => line.order = order.pk) PlacedLine.quantity
      (db.lines.rows.filter (·.variant = some variant))).sum

/-- **What is accumulated** over the lines is what the orders hold. -/
theorem accumulated_eq_bought (db : Purchases) (user : Option ℕ) (variant : ℕ) :
    accumulated db user variant = bought db user variant := by
  have hkeys : ((db.orders.rows.filter (PlacedOrder.counts user)).map PlacedOrder.pk).Nodup :=
    (List.filter_sublist.map PlacedOrder.pk).nodup db.orders.nodup
  have hcounts : ∀ line : PlacedLine, (db.orders.find? line.order).any (PlacedOrder.counts user)
      = decide (line.order ∈ (db.orders.rows.filter (PlacedOrder.counts user)).map
        PlacedOrder.pk) := by
    intro line
    rw [Bool.eq_iff_iff, decide_eq_true_iff, Option.any_eq_true, List.mem_map]
    constructor
    · rintro ⟨order, hfound, hcounts⟩
      obtain ⟨hmem, hpk⟩ := Table.find?_eq_some.mp hfound
      exact ⟨order, List.mem_filter.mpr ⟨hmem, hcounts⟩, hpk⟩
    · rintro ⟨order, hmem, hpk⟩
      obtain ⟨hmem, hcounts⟩ := List.mem_filter.mp hmem
      exact ⟨order, Table.find?_eq_some.mpr ⟨hmem, hpk⟩, hcounts⟩
  have hgroups : bought db user variant
      = sumIf (fun line => line.order
          ∈ (db.orders.rows.filter (PlacedOrder.counts user)).map PlacedOrder.pk)
        PlacedLine.quantity (db.lines.rows.filter (·.variant = some variant)) := by
    rw [← sum_sumIf_key PlacedLine.order PlacedLine.quantity hkeys, List.map_map]
    rfl
  rw [hgroups, sumIf_filter, accumulated, ← List.foldl_map, ← List.sum_eq_foldl, sumIf]
  refine congrArg (fun lines : List PlacedLine => (lines.map PlacedLine.quantity).sum) ?_
  exact List.filter_congr fun line _ =>
    congrArg (· && decide (line.variant = some variant)) (hcounts line)

/-! ### When the check raises -/

section Limits

variable (db : Purchases) (user : Option ℕ) (variant : Variant) (quantity : ℤ)
  (globalQuantityLimit : Option ℤ)

/-- The check raises, whatever it says. -/
def ExceedsLimit : Prop :=
  ∃ e, checkQuantityLimits db user variant quantity globalQuantityLimit = .error e

/-- A check raises exactly when a difference other than `-1` is smaller than the quantity. -/
theorem checkQuantityLimits_error_iff :
    ExceedsLimit db user variant quantity globalQuantityLimit
      ↔ variantQuantityAllowed db user variant globalQuantityLimit ≠ -1
        ∧ variantQuantityAllowed db user variant globalQuantityLimit < quantity := by
  rw [ExceedsLimit, checkQuantityLimits]
  constructor
  · rintro ⟨e, he⟩
    split at he
    · assumption
    · cases he
  · intro h
    exact ⟨_, if_pos h⟩

variable {db user variant quantity globalQuantityLimit}

/-- Without a limit the check never raises. -/
theorem not_exceedsLimit_of_none (h : quantityLimit variant globalQuantityLimit = none) :
    ¬ ExceedsLimit db user variant quantity globalQuantityLimit := by
  rw [checkQuantityLimits_error_iff, variantQuantityAllowed, h]
  exact fun hallowed => hallowed.1 rfl

/-- With a limit the check raises if the limit is exceeded, but for one difference. -/
theorem exceedsLimit_iff_of_some {limit : ℤ}
    (h : quantityLimit variant globalQuantityLimit = some limit) :
    ExceedsLimit db user variant quantity globalQuantityLimit
      ↔ bought db user variant.pk ≠ limit + 1
        ∧ limit < bought db user variant.pk + quantity := by
  rw [checkQuantityLimits_error_iff, variantQuantityAllowed, h, ← accumulated_eq_bought]
  dsimp only
  omega

variable (db user variant quantity globalQuantityLimit)

/-- A limit is enforced: with one, the check raises exactly if the quantity goes past it, and
without one it does not raise. -/
def LimitEnforced : Prop :=
  (∀ limit, 0 < limit → quantityLimit variant globalQuantityLimit = some limit →
    (ExceedsLimit db user variant quantity globalQuantityLimit
      ↔ bought db user variant.pk + quantity > limit)) ∧
  (quantityLimit variant globalQuantityLimit = none →
    ¬ ExceedsLimit db user variant quantity globalQuantityLimit)

/-- **A limit is enforced** unless the user has bought exactly one item more than it: the allowance
is then the number that stands for no limit. -/
theorem limitEnforced_iff (hquantity : 0 < quantity) :
    LimitEnforced db user variant quantity globalQuantityLimit
      ↔ ∀ limit, 0 < limit → quantityLimit variant globalQuantityLimit = some limit →
        bought db user variant.pk ≠ limit + 1 := by
  constructor
  · rintro ⟨hlimit, -⟩ limit hpos h heq
    have hiff := hlimit limit hpos h
    rw [exceedsLimit_iff_of_some h] at hiff
    -- one more than the limit is bought, so anything is too much, and the check lets it pass
    exact (hiff.mpr (by omega)).1 heq
  · intro hne
    refine ⟨fun limit hpos h => ?_, not_exceedsLimit_of_none⟩
    rw [exceedsLimit_iff_of_some h]
    have hother := hne limit hpos h
    constructor
    · exact fun hraise => hraise.2
    · exact fun hover => ⟨hother, hover⟩

end Limits

/-! ### A limit that was lowered -/

/-- A variant with a limit of two per customer. -/
def limitedVariant : Variant := { pk := 1, name := "Mug", quantityLimitPerCustomer := some 2 }

/-- A customer who bought three of it. -/
def threeBought : Purchases where
  orders := .singleton { pk := 1, user := some 7, status := .fulfilled }
  lines := .singleton { pk := 1, order := 1, variant := some 1, quantity := 3 }

/-- A customer who bought two of it. -/
def twoBought : Purchases where
  orders := .singleton { pk := 1, user := some 7, status := .fulfilled }
  lines := .singleton { pk := 1, order := 1, variant := some 1, quantity := 2 }

/-- The limit is enforced for the one who bought two. -/
theorem limitEnforced_twoBought : LimitEnforced twoBought (some 7) limitedVariant 1 none := by
  refine (limitEnforced_iff twoBought (some 7) limitedVariant 1 none (by decide)).mpr ?_
  intro limit _ h
  obtain rfl : (2 : ℤ) = limit := Option.some.inj h
  decide

/-- The one who bought three may buy any number more. -/
theorem limit_not_enforced_threeBought :
    ¬ LimitEnforced threeBought (some 7) limitedVariant 1000 none := by
  rintro ⟨h, -⟩
  have hraise := (h 2 (by decide) rfl).mpr (by decide)
  rw [checkQuantityLimits_error_iff] at hraise
  exact hraise.1 (by decide)

end Stocks

end Aixinwu
