import Aixinwu.Checkout.CartChecks

/-!
# Which variants may enter a cart

`CheckoutLinesAdd` and `CheckoutLinesUpdate` let variants into a checkout that are available for
purchase, listed in its channel and published. Only those that something is asked for are to be
validated; which these are is read off the line data, by pairing the variants with them.

The variants are what `get_nodes` makes of the ids, each once: in the order of the inputs on an
addition, and on an update in that of a set. The line data are in the order in which they were
grouped, and there may be several for a variant. So a variant may be paired with the line data of
another one, or with none. A variant that gets items then goes unvalidated if its partner has a
quantity of zero, and one that gets none is validated if its partner has another.

## What is a parameter

The texts that denote what, the order in which a set yields its elements, and what reserving does.

## Main definitions

* `Shop`, `Purchasable`
* `variantsIdsToValidate`, `cleanInput`, `performMutation`
* `Paired`, `Spared` — the pairing does no harm
* `Corresponds` — the inputs are for the variants
* `Causes` — a request is refused because of a variant

## Main results

* `paired_of_ne_zero` — without zeros the pairing does no harm
* `purchasable_of_performMutation`, `exists_causes_of_validate`
* `onlyPurchasable`
-/

namespace Aixinwu

namespace CartLines

open Nodes (Texts DoubleTable getNodes getNodesForTypesWithDoubleId)
open Stocks (Variant Store StockCheck)

/-! ### The shop -/

/-- `product.models.ProductChannelListing`, as far as the validations read it: one for a product and
a channel. -/
structure ProductChannelListing where
  product : ℕ
  channel : ℕ
  availableForPurchaseAt : Option Time := none
  isPublished : Bool := false
deriving DecidableEq, Repr

instance : HasPk ProductChannelListing (ℕ × ℕ) := ⟨fun l => (l.product, l.channel)⟩

/-- `product.models.ProductVariantChannelListing`: one for a variant and a channel. -/
structure ProductVariantChannelListing where
  variant : ℕ
  channel : ℕ
  priceAmount : Option ℚ := none
deriving DecidableEq, Repr

instance : HasPk ProductVariantChannelListing (ℕ × ℕ) := ⟨fun l => (l.variant, l.channel)⟩

/-- The tables. The lines are those of all checkouts, which have old ids. -/
structure Shop (oldId : CheckoutLine → Option ℕ) extends Store where
  productListings : Table ProductChannelListing := .empty
  variantListings : Table ProductVariantChannelListing := .empty
  checkoutLines : DoubleTable CheckoutLine oldId

section Shop

variable {oldId : CheckoutLine → Option ℕ} (shop : Shop oldId) (now : Time) (channel : ℕ) (v : ℕ)

/-- The listings of the variant's product in the channel. -/
def Shop.listingsOf : List ProductChannelListing :=
  shop.productListings.rows.filter fun l => decide (l.channel = channel)
    && (shop.catalogue.find? v).any fun variant => decide (variant.product = l.product)

/-- The variant is not one of `get_not_available_variants_for_purchase`. -/
def Shop.isAvailableForPurchase : Bool :=
  (shop.listingsOf channel v).any fun l => l.availableForPurchaseAt.any (· ≤ now)

/-- The variant is not one of `get_not_available_variants_in_channel`. -/
def Shop.isAvailableInChannel : Bool :=
  shop.variantListings.rows.any fun l =>
    decide (l.variant = v) && decide (l.channel = channel) && l.priceAmount.isSome

/-- The variant is not one of `get_not_published_variants`. -/
def Shop.isPublished : Bool := (shop.listingsOf channel v).any (·.isPublished)

/-- **The variant can be purchased**: it is available for purchase, has a price in the channel, and
is published. -/
structure Purchasable : Prop where
  forPurchase : shop.isAvailableForPurchase now channel v = true
  inChannel : shop.isAvailableInChannel channel v = true
  published : shop.isPublished channel v = true

end Shop

/-! ### The mutations -/

/-- What a request raises. -/
inductive RequestError (ε : Type) where
  | oneOfArgs (message : String)
  | permissionDenied
  | nodes (e : Nodes.Failure)
  | grouping (e : Failure)
  | quantityRequired (e : FieldError)
  | check (e : CheckError)
  | unavailable (e : FieldError) (variants : List ℕ)
  | adding (e : Failure ⊕ ε)

/-- What the mutations read besides the checkout: the app, the site and the channel of the checkout,
which they are part of, the time, and what denotes what. -/
structure Environment (σ ε : Type) where
  texts : Texts
  globalId : ℕ → String
  fromGlobalId_globalId : ∀ v, texts.fromGlobalId (globalId v) = some ("ProductVariant", toString v)
  setOrder : List String → List String
  setOrder_perm : ∀ l, (setOrder l).Perm l.dedup
  isApp : Bool := false
  handlesCheckouts : Bool := false
  validation : Validation
  channel : ℕ
  now : Time
  reserver : Reserver σ ε
  reservationLength : Option ℤ := none

section Mutations

variable {σ ε : Type} {oldId : CheckoutLine → Option ℕ} (env : Environment σ ε) (shop : Shop oldId)

/-- `_get_variants_from_lines_input`. -/
def getVariantsFromLinesInput : LinesInput → Except Nodes.Failure (List Variant)
  | .add lines => getNodes env.texts "ProductVariant" shop.catalogue (lines.map (·.variantId))
  | .update lines =>
    let variantIds := (lines.map (·.variantId)).filter (· ≠ "")
    let lineIds := (lines.map (·.lineId)).filter (· ≠ "")
    (if lineIds = [] then .ok []
      else getNodesForTypesWithDoubleId env.texts "CheckoutLine" shop.checkoutLines lineIds).bind
    fun linesInstances =>
      getNodes env.texts "ProductVariant" shop.catalogue (env.setOrder
        (variantIds ++ linesInstances.map fun line => env.globalId line.variant))

/-- `variants_ids_to_validate`. -/
def variantsIdsToValidate (variants : List Variant) (linesData : List CheckoutLineData) : List ℕ :=
  ((variants.zip linesData).filter fun p =>
    p.2.quantityToUpdate && decide (p.2.quantity ≠ 0)).map (·.1.pk)

/-- An error of `lines`, unless all variants are right. -/
def validateVariants (right : ℕ → Bool) (message code : String) (variantsId : List ℕ) :
    Except (RequestError ε) Unit :=
  if variantsId.filter (!right ·) = [] then .ok ()
  else .error (.unavailable ⟨"lines", message, code⟩ (variantsId.filter (!right ·)))

/-- `validate_variants_available_for_purchase`. -/
def validateVariantsAvailableForPurchase (variantsId : List ℕ) : Except (RequestError ε) Unit :=
  validateVariants (shop.isAvailableForPurchase env.now env.channel)
    "Cannot add lines for unavailable for purchase variants." "product_unavailable_for_purchase"
    variantsId

/-- `validate_variants_available_in_channel`. -/
def validateVariantsAvailableInChannel (variantsId : List ℕ) : Except (RequestError ε) Unit :=
  validateVariants (shop.isAvailableInChannel env.channel)
    "Cannot add lines with unavailable variants." "unavailable_variant_in_channel" variantsId

/-- `validate_variants_are_published`. -/
def validateVariantsArePublished (variantsId : List ℕ) : Except (RequestError ε) Unit :=
  validateVariants (shop.isPublished env.channel)
    "Cannot add lines for unpublished variants." "product_not_published" variantsId

/-- The quantity is required for all lines, if the requestor is not an app. -/
def requireQuantities (r : LinesInput) (linesData : List CheckoutLineData) :
    Except (RequestError ε) Unit :=
  if r.replace && !env.isApp && linesData.any (!·.quantityToUpdate) then
    .error (.quantityRequired ⟨"quantity", "The quantity is required for all lines.", "required"⟩)
  else .ok ()

variable (cart : Cart) (key : ℕ → ℕ)

/-- The validations of `clean_input`. -/
def validate (r : LinesInput) (variants : List Variant) (linesData : List CheckoutLineData) :
    Except (RequestError ε) Unit :=
  (requireQuantities env r linesData).bind fun _ =>
  ((env.validation.validateCheckoutLines shop.toStore env.now cart.rows r.replace variants
    linesData).mapError .check).bind fun _ =>
  let variantsId := variantsIdsToValidate variants linesData
  -- validate variant only when line quantity is bigger than 0
  if variantsId = [] then .ok ()
  else
    (validateVariantsAvailableForPurchase env shop variantsId).bind fun _ =>
    (validateVariantsAvailableInChannel env shop variantsId).bind fun _ =>
    validateVariantsArePublished env shop variantsId

/-- `clean_input`, up to the lines it leaves. -/
def cleanInput (r : LinesInput) (variants : List Variant) (linesData : List CheckoutLineData)
    (s : σ) : Except (RequestError ε) (Cart × σ) :=
  (validate env shop cart r variants linesData).bind fun _ =>
  if variants = [] ∨ linesData = [] then .ok (cart, s)
  else (addVariantsToCheckout env.texts (variants.map (·.pk)) key r.replace env.reserver cart
    linesData env.reservationLength s).mapError .adding

/-- `validate_one_of_args_is_in_mutation`, for one input after another. -/
def validateOneOfArgs : List CheckoutLineUpdateInput → Except (RequestError ε) Unit
  | [] => .ok ()
  | line :: lines =>
    if line.lineId ≠ "" ∧ line.variantId ≠ "" then
      .error (.oneOfArgs "Argument 'line_id' cannot be combined with 'variant_id'")
    else if line.lineId = "" ∧ line.variantId = "" then
      .error (.oneOfArgs "At least one of arguments is required: 'line_id', 'variant_id'.")
    else validateOneOfArgs lines

/-- What comes before: an update has its inputs looked through. -/
def LinesInput.validateArgs : LinesInput → Except (RequestError ε) Unit
  | .add _ => .ok ()
  | .update lines => validateOneOfArgs lines

/-- There is a price in the inputs. -/
def LinesInput.hasPrice : LinesInput → Bool
  | .add lines => lines.any (·.price.isSome)
  | .update lines => lines.any (·.price.isSome)

/-- `check_permissions_for_custom_prices`. -/
def checkPermissionsForCustomPrices (r : LinesInput) : Except (RequestError ε) Unit :=
  if r.hasPrice && !(env.isApp && env.handlesCheckouts) then .error .permissionDenied else .ok ()

/-- `perform_mutation`, up to what follows from the lines. -/
def performMutation (r : LinesInput) (s : σ) : Except (RequestError ε) (Cart × σ) :=
  r.validateArgs.bind fun _ =>
  (checkPermissionsForCustomPrices env r).bind fun _ =>
  ((getVariantsFromLinesInput env shop r).mapError .nodes).bind fun variants =>
  ((r.getGroupedLinesData env.texts cart.rows).mapError .grouping).bind fun linesData =>
  cleanInput env shop cart key r variants linesData s

end Mutations

/-! ### The pairing -/

/-- A line data with items is for a variant that is paired with line data of another quantity than
zero. -/
def Paired (variants : List Variant) (data : List CheckoutLineData) : Prop :=
  ∀ d ∈ data, 0 < d.quantity → ∃ v ∈ variantsIdsToValidate variants data,
    d.variantId = some (toString v)

/-- A variant that is paired with such line data has an input that asks for something. -/
def Spared (asks : List Ask) (cart : Cart) (variants : List Variant)
    (data : List CheckoutLineData) : Prop :=
  ∀ v ∈ variantsIdsToValidate variants data,
    ∃ a ∈ asks, a.1.variantId cart.rows = some (toString v) ∧ a.2 ≠ some 0

/-- Where nothing is asked to be zero every variant is validated, if there are line data enough. -/
theorem variantsIdsToValidate_eq {variants : List Variant} {data : List CheckoutLineData}
    (hlength : variants.length ≤ data.length)
    (h : ∀ d ∈ data, d.quantityToUpdate = true ∧ d.quantity ≠ 0) :
    variantsIdsToValidate variants data = variants.map (·.pk) := by
  have hall : ∀ p ∈ variants.zip data,
      (p.2.quantityToUpdate && decide (p.2.quantity ≠ 0)) = true := fun p hp => by
    obtain ⟨hquantity, hne⟩ := h p.2 (List.of_mem_zip hp).2
    rw [hquantity, Bool.true_and]
    exact decide_eq_true hne
  rw [variantsIdsToValidate, List.filter_eq_self.mpr hall]
  have hfst : (variants.zip data).map (fun p => p.1.pk)
      = ((variants.zip data).map Prod.fst).map (·.pk) := by rw [List.map_map]; rfl
  rw [hfst, List.map_fst_zip hlength]

/-- The pairing does no harm if nothing is asked to be zero, the line data are for the variants, and
every variant has some. -/
theorem paired_of_forall_ne_zero {variants : List Variant} {data : List CheckoutLineData}
    (hvariants : (variants.map (·.pk)).Nodup)
    (h : ∀ d ∈ data, d.quantityToUpdate = true ∧ d.quantity ≠ 0)
    (hdata : ∀ d ∈ data, ∃ v ∈ variants, d.variantId = some (toString v.pk))
    (hcovered : ∀ v ∈ variants, ∃ d ∈ data, d.variantId = some (toString v.pk)) :
    Paired variants data := by
  have hsub : variants.map (fun v => some (toString v.pk)) ⊆ data.map (·.variantId) := by
    intro t ht
    obtain ⟨v, hv, rfl⟩ := List.mem_map.mp ht
    obtain ⟨d, hd, hvariant⟩ := hcovered v hv
    exact List.mem_map.mpr ⟨d, hd, hvariant⟩
  have hnodup : (variants.map (fun v => some (toString v.pk))).Nodup := by
    have hmap : variants.map (fun v => some (toString v.pk))
        = (variants.map (·.pk)).map fun k => some (toString k) := by rw [List.map_map]; rfl
    rw [hmap]
    exact hvariants.map fun k k' hk => toString_inj.mp (Option.some.inj hk)
  have hlength := (List.subperm_of_subset hnodup hsub).length_le
  rw [List.length_map, List.length_map] at hlength
  intro d hd _
  rw [variantsIdsToValidate_eq hlength h]
  obtain ⟨v, hv, hvariant⟩ := hdata d hd
  exact ⟨v.pk, List.mem_map_of_mem hv, hvariant⟩

/-! ### The variants of a request -/

section Variants

variable {σ ε : Type} {oldId : CheckoutLine → Option ℕ} {env : Environment σ ε} {shop : Shop oldId}
  {cart : Cart} {r : LinesInput} {variants : List Variant} {data : List CheckoutLineData}

/-- What the id of a node says: the type, and a text that is not empty. -/
theorem fromGlobalId_of_pkText {texts : Texts} {type id t : String}
    (h : Nodes.pkText texts type id = some t) (htype : type ≠ "app") :
    texts.fromGlobalId id = some (type, t) ∧ t ≠ "" := by
  rw [Nodes.pkText, Nodes.fromGlobalIdOrError] at h
  cases hid : texts.fromGlobalId id with
  | none =>
    rw [hid] at h
    cases h
  | some p =>
    obtain ⟨type', t'⟩ := p
    rw [hid] at h
    dsimp only at h
    by_cases happ : type' = "app"
    · subst happ
      simp [Ne.symm htype] at h
    · rw [if_neg happ] at h
      split_ifs at h with hread
      · dsimp only at h
        split_ifs at h with hother
        obtain rfl := Option.some.inj h
        obtain ⟨-, htype'⟩ := not_or.mp hother
        rw [not_not.mp htype']
        refine ⟨rfl, fun hnil => hread ?_⟩
        rw [hnil]
        exact ⟨texts.int_empty, texts.uuid_empty⟩

theorem variantId_line {line : CheckoutLine} (hline : line ∈ cart) :
    (Target.line line.pk).variantId cart.rows = some (toString line.variant) :=
  variantId_eq_iff.mpr <| .inl <| List.mem_map.mpr
    ⟨line, List.mem_filter.mpr ⟨hline, decide_eq_true rfl⟩, rfl⟩

/-- The only line that is found for a variant has it. -/
theorem variantId_of_linesOf {texts : Texts} {v : ℕ} {line : CheckoutLine}
    (h : linesOf texts cart.rows (toString v) = [line]) :
    (Target.line line.pk).variantId cart.rows = some (toString v) := by
  have hmem : line ∈ linesOf texts cart.rows (toString v) := h ▸ List.mem_singleton_self line
  obtain ⟨hline, hint⟩ := List.mem_filter.mp hmem
  rw [variantId_line hline,
    Nodes.eq_of_int_eq (of_decide_eq_true hint) (texts.int_toString v)]

/-- The target of an input that adds has the variant of its id. -/
theorem variantId_target_add {texts : Texts} {input : CheckoutLineInput} {v : ℕ}
    (h : Nodes.pkText texts "ProductVariant" input.variantId = some (toString v)) :
    ∃ target, input.target texts cart.rows = some target ∧
      target.variantId cart.rows = some (toString v) := by
  rw [CheckoutLineInput.target, (fromGlobalId_of_pkText h (by decide)).1, Option.map_some]
  refine ⟨_, rfl, ?_⟩
  split
  · rfl
  · split
    · rfl
    · exact variantId_of_linesOf ‹_›
    · rfl

/-- So has that of an input that updates, if it has one. -/
theorem variantId_target_update {texts : Texts} {input : CheckoutLineUpdateInput} {v : ℕ}
    (hline : input.lineId = "")
    (h : Nodes.pkText texts "ProductVariant" input.variantId = some (toString v)) {target : Target}
    (htarget : input.target texts cart.rows = some target) :
    target.variantId cart.rows = some (toString v) := by
  rw [CheckoutLineUpdateInput.target, if_neg (not_not.mpr hline),
    (fromGlobalId_of_pkText h (by decide)).1, Option.bind_some] at htarget
  split at htarget
  · rw [← Option.some.inj htarget]
    rfl
  · rw [← Option.some.inj htarget]
    exact variantId_of_linesOf ‹_›
  · cases htarget

/-- The text of the id of a variant is its number. -/
theorem pkText_globalId (v : ℕ) :
    Nodes.pkText env.texts "ProductVariant" (env.globalId v) = some (toString v) := by
  have hid := env.fromGlobalId_globalId v
  have hne : env.globalId v ≠ "" := fun hnil => by
    rw [hnil, env.texts.fromGlobalId_empty] at hid
    cases hid
  have hread : ¬ (env.texts.int (toString v) = none ∧ env.texts.uuid (toString v) = none) := by
    rw [env.texts.int_toString]
    exact fun h => absurd h.1 (Option.some_ne_none _)
  rw [Nodes.pkText, Nodes.fromGlobalIdOrError, hid]
  dsimp only
  rw [if_neg (by decide), if_neg hread]
  exact if_neg (not_or.mpr ⟨hne, not_not.mpr rfl⟩)

/-- On an update a line id stands for the line of the checkout that is the target. -/
theorem line_of_lineId (hcart : ∀ line ∈ cart, line ∈ shop.checkoutLines.toTable)
    {input : CheckoutLineUpdateInput} (hline : input.lineId ≠ "") {e : Entry env.texts cart.rows}
    (htarget : input.target env.texts cart.rows = some e.target) {node : CheckoutLine}
    (hnamed : Nodes.denotedDouble env.texts "CheckoutLine" shop.checkoutLines input.lineId
      = some node) : node ∈ cart ∧ e.target = .line node.pk := by
  rw [CheckoutLineUpdateInput.target, if_pos hline] at htarget
  obtain ⟨p, hid, hp⟩ := Option.bind_eq_some_iff.mp htarget
  obtain ⟨u, hu, heq⟩ := Option.map_eq_some_iff.mp hp
  obtain ⟨line, hmem, hpk⟩ := e.exists_line heq.symm
  obtain ⟨t, ht, hfind⟩ := Option.bind_eq_some_iff.mp hnamed
  rw [(fromGlobalId_of_pkText ht (by decide)).1] at hid
  obtain rfl := Option.some.inj hid
  rw [hu] at hfind
  have hnode : HasPk.pk node = u := by
    simpa only [decide_eq_true_eq] using List.find?_some hfind
  obtain rfl : node = line := shop.checkoutLines.eq_of_pk_eq (List.mem_of_find?_eq_some hfind)
    (hcart line hmem) (hnode.trans hpk.symm)
  rw [hpk]
  exact ⟨hmem, heq.symm⟩

/-- An input of an update has an entry. -/
theorem exists_entry_of_update {lines : List CheckoutLineUpdateInput}
    (haccepted : Accepted env.texts cart.rows lines)
    (hdata : groupLinesInputDataOnUpdate env.texts cart.rows lines = .ok data)
    {input : CheckoutLineUpdateInput} (hinput : input ∈ lines) :
    ∃ e : Entry env.texts cart.rows, input.target env.texts cart.rows = some e.target := by
  obtain ⟨g, hg, -⟩ := exists_of_map_eq_ok hdata
  obtain ⟨es, hes, -⟩ := exists_entries_of_updateLoop haccepted hg
  obtain ⟨e, -, htarget, -⟩ := exists_of_forall₂ hes hinput
  exact ⟨e, htarget⟩

/-- The inputs and the variants stand for the same variants. -/
structure Corresponds (cart : Cart) (asks : List Ask) (variants : List Variant) : Prop where
  exists_variant : ∀ a ∈ asks, ∃ v ∈ variants, a.1.variantId cart.rows = some (toString v.pk)
  exists_ask : ∀ v ∈ variants, ∃ a ∈ asks, a.1.variantId cart.rows = some (toString v.pk)

theorem corresponds_add {lines : List CheckoutLineInput}
    (hvariants : getVariantsFromLinesInput env shop (.add lines) = .ok variants) :
    Corresponds cart ((LinesInput.add lines).asks env.texts cart.rows) variants where
  exists_variant a ha := by
    obtain ⟨input, hinput, hask⟩ := List.mem_filterMap.mp ha
    obtain ⟨target, htarget, rfl⟩ := Option.map_eq_some_iff.mp hask
    obtain ⟨v, hv, hpk⟩ := Nodes.exists_node_of_getNodes hvariants (List.mem_map_of_mem hinput)
    obtain ⟨target', htarget', hvariant⟩ := @variantId_target_add cart _ _ _ hpk
    obtain rfl := Option.some.inj (htarget.symm.trans htarget')
    exact ⟨v, hv, hvariant⟩
  exists_ask v hv := by
    obtain ⟨globalId, hid, hpk⟩ := Nodes.exists_id_of_getNodes hvariants hv
    obtain ⟨input, hinput, rfl⟩ := List.mem_map.mp hid
    obtain ⟨target, htarget, hvariant⟩ := @variantId_target_add cart _ _ _ hpk
    refine ⟨(target, input.quantity), List.mem_filterMap.mpr ⟨input, hinput, ?_⟩, hvariant⟩
    rw [htarget, Option.map_some]

theorem corresponds_update (hcart : ∀ line ∈ cart, line ∈ shop.checkoutLines.toTable)
    {lines : List CheckoutLineUpdateInput} (haccepted : Accepted env.texts cart.rows lines)
    (hvariants : getVariantsFromLinesInput env shop (.update lines) = .ok variants)
    (hdata : groupLinesInputDataOnUpdate env.texts cart.rows lines = .ok data) :
    Corresponds cart ((LinesInput.update lines).asks env.texts cart.rows) variants := by
  obtain ⟨instances, hinstances, hnodes⟩ := exists_of_bind_eq_ok hvariants
  have hreturned : Nodes.Returned
      (Nodes.denotedDouble env.texts "CheckoutLine" shop.checkoutLines)
      ((lines.map (·.lineId)).filter (· ≠ "")) instances := by
    split at hinstances
    · rename_i hnil
      rw [hnil, ← Except.ok.inj hinstances]
      exact ⟨List.nodup_nil, [], rfl, fun _ => Iff.rfl, fun _ => rfl⟩
    · exact (Nodes.returned_getNodesForTypesWithDoubleId hinstances).1
  have hmem : ∀ ids globalId, globalId ∈ env.setOrder ids ↔ globalId ∈ ids := fun ids globalId =>
    (env.setOrder_perm ids).mem_iff.trans List.mem_dedup
  refine ⟨fun a ha => ?_, fun v hv => ?_⟩
  · obtain ⟨input, hinput, hask⟩ := List.mem_filterMap.mp ha
    obtain ⟨target, htarget, rfl⟩ := Option.map_eq_some_iff.mp hask
    by_cases hline : input.lineId = ""
    · have hid : input.variantId ∈ (lines.map (·.variantId)).filter (· ≠ "") :=
        List.mem_filter.mpr ⟨List.mem_map_of_mem hinput,
          decide_eq_true ((haccepted.one input hinput).mp hline)⟩
      obtain ⟨v, hv, hpk⟩ := Nodes.exists_node_of_getNodes hnodes
        ((hmem _ _).mpr (List.mem_append_left _ hid))
      exact ⟨v, hv, variantId_target_update hline hpk htarget⟩
    · have hid : input.lineId ∈ (lines.map (·.lineId)).filter (· ≠ "") :=
        List.mem_filter.mpr ⟨List.mem_map_of_mem hinput, decide_eq_true hline⟩
      obtain ⟨node, hnode, hnamed⟩ := hreturned.exists_node hid
      obtain ⟨e, he⟩ := exists_entry_of_update haccepted hdata hinput
      obtain rfl := Option.some.inj (htarget.symm.trans he)
      obtain ⟨hcart', htarget'⟩ := line_of_lineId hcart hline he hnamed
      obtain ⟨v, hv, hpk⟩ := Nodes.exists_node_of_getNodes hnodes
        ((hmem _ _).mpr (List.mem_append_right _ (List.mem_map_of_mem hnode)))
      refine ⟨v, hv, ?_⟩
      rw [htarget', variantId_line hcart']
      exact (pkText_globalId node.variant).symm.trans hpk
  · obtain ⟨globalId, hid, hpk⟩ := Nodes.exists_id_of_getNodes hnodes hv
    rcases List.mem_append.mp ((hmem _ _).mp hid) with hid | hid
    · obtain ⟨hid, hne⟩ := List.mem_filter.mp hid
      obtain ⟨input, hinput, rfl⟩ := List.mem_map.mp hid
      have hline := (haccepted.one input hinput).mpr (of_decide_eq_true hne)
      obtain ⟨e, he⟩ := exists_entry_of_update haccepted hdata hinput
      refine ⟨(e.target, input.quantity), List.mem_filterMap.mpr ⟨input, hinput, ?_⟩,
        variantId_target_update hline hpk he⟩
      rw [he, Option.map_some]
    · obtain ⟨node, hnode, rfl⟩ := List.mem_map.mp hid
      obtain ⟨lineId, hid, hnamed⟩ := hreturned.exists_id hnode
      obtain ⟨hid, hne⟩ := List.mem_filter.mp hid
      obtain ⟨input, hinput, rfl⟩ := List.mem_map.mp hid
      obtain ⟨e, he⟩ := exists_entry_of_update haccepted hdata hinput
      obtain ⟨hcart', htarget'⟩ := line_of_lineId hcart (of_decide_eq_true hne) he hnamed
      refine ⟨(e.target, input.quantity), List.mem_filterMap.mpr ⟨input, hinput, ?_⟩, ?_⟩
      · rw [he, Option.map_some]
      · rw [htarget', variantId_line hcart']
        exact (pkText_globalId node.variant).symm.trans hpk

/-- The variants of a request are different. -/
theorem nodup_pk_of_getVariants
    (hvariants : getVariantsFromLinesInput env shop r = .ok variants) :
    (variants.map (·.pk)).Nodup := by
  have hnodup : ∀ {ids : List String}, getNodes env.texts "ProductVariant" shop.catalogue ids
      = .ok variants → (variants.map (·.pk)).Nodup := by
    intro ids h
    obtain ⟨hreturned, hmem⟩ := Nodes.returned_getNodes h
    exact hreturned.nodup.map_on fun v hv w hw hpk =>
      shop.catalogue.eq_of_pk_eq (hmem v hv) (hmem w hw) hpk
  cases r with
  | add lines => exact hnodup hvariants
  | update lines =>
    obtain ⟨instances, -, h⟩ := exists_of_bind_eq_ok hvariants
    exact hnodup h

/-- **Nothing goes wrong without zeros**: if all line data have a quantity other than zero. -/
theorem paired_of_ne_zero (hcart : ∀ line ∈ cart, line ∈ shop.checkoutLines.toTable)
    (haccepted : r.Accepted env.texts cart.rows)
    (hvariants : getVariantsFromLinesInput env shop r = .ok variants)
    (hdata : r.getGroupedLinesData env.texts cart.rows = .ok data)
    (h : ∀ d ∈ data, d.quantityToUpdate = true ∧ d.quantity ≠ 0) : Paired variants data := by
  have hcorresponds : Corresponds cart (r.asks env.texts cart.rows) variants := by
    cases r with
    | add lines => exact corresponds_add hvariants
    | update lines => exact corresponds_update hcart haccepted hvariants hdata
  obtain ⟨es, rfl, hasks⟩ := LinesInput.exists_entries haccepted hdata
  rw [hasks] at hcorresponds
  refine paired_of_forall_ne_zero (nodup_pk_of_getVariants hvariants) h (fun d hd => ?_)
    fun v hv => ?_
  · rcases mem_data.mp hd with ⟨e, he, -, rfl⟩ | ⟨target, htarget, rfl⟩
    · obtain ⟨v, hv, hvariant⟩ := hcorresponds.exists_variant e.ask (List.mem_map_of_mem he)
      exact ⟨v, hv, (variantId_write_ask e).trans hvariant⟩
    · obtain ⟨⟨e, he, rfl⟩, -⟩ := mem_sharedTargets.mp htarget
      obtain ⟨v, hv, hvariant⟩ := hcorresponds.exists_variant e.ask (List.mem_map_of_mem he)
      exact ⟨v, hv, (variantId_dataFor cart.nodup htarget).trans hvariant⟩
  · obtain ⟨a, ha, hvariant⟩ := hcorresponds.exists_ask v hv
    have hcounted : counted false (es.map Entry.ask) cart v.pk = true :=
      List.any_eq_true.mpr ⟨a, ha, by rw [decide_eq_true hvariant]; rfl⟩
    obtain ⟨d, hd, -, hvariant'⟩ := (exists_data_iff false v.pk).mpr hcounted
    exact ⟨d, hd, hvariant'⟩

end Variants

/-! ### What is accepted -/

section Accepted

variable {σ ε : Type} {oldId : CheckoutLine → Option ℕ} {env : Environment σ ε} {shop : Shop oldId}
  {cart after : Cart} {key : ℕ → ℕ} {r : LinesInput} {variants : List Variant}
  {data : List CheckoutLineData} {s s' : σ}

theorem validateVariants_eq_ok_iff {right : ℕ → Bool} {message code : String} {ids : List ℕ} :
    validateVariants (ε := ε) right message code ids = .ok () ↔ ∀ v ∈ ids, right v = true := by
  rw [validateVariants]
  split
  · rename_i hnil
    refine iff_of_true rfl fun v hv => ?_
    simpa using List.filter_eq_nil_iff.mp hnil v hv
  · rename_i hne
    refine iff_of_false (by rintro ⟨⟩) fun hall => hne (List.filter_eq_nil_iff.mpr fun v hv => ?_)
    simp [hall v hv]

/-- **What is validated can be purchased.** -/
theorem purchasable_of_validate (h : validate env shop cart r variants data = .ok ()) :
    ∀ v ∈ variantsIdsToValidate variants data, Purchasable shop env.now env.channel v := by
  obtain ⟨⟨⟩, -, h⟩ := exists_of_bind_eq_ok h
  obtain ⟨⟨⟩, -, h⟩ := exists_of_bind_eq_ok h
  intro v hv
  dsimp only at h
  rw [if_neg (List.ne_nil_of_mem hv)] at h
  obtain ⟨⟨⟩, hpurchase, h⟩ := exists_of_bind_eq_ok h
  obtain ⟨⟨⟩, hchannel, hpublished⟩ := exists_of_bind_eq_ok h
  exact ⟨validateVariants_eq_ok_iff.mp hpurchase v hv, validateVariants_eq_ok_iff.mp hchannel v hv,
    validateVariants_eq_ok_iff.mp hpublished v hv⟩

/-- What a request goes through that is accepted. -/
theorem performMutation_eq_ok
    (h : performMutation env shop cart key r s = .ok (after, s'))
    (hvariants : getVariantsFromLinesInput env shop r = .ok variants)
    (hdata : r.getGroupedLinesData env.texts cart.rows = .ok data) :
    r.validateArgs (ε := ε) = .ok () ∧ validate env shop cart r variants data = .ok () ∧
      (after = cart ∨ addVariantsToCheckout env.texts (variants.map (·.pk)) key r.replace
        env.reserver cart data env.reservationLength s = .ok (after, s')) := by
  obtain ⟨⟨⟩, hargs, h⟩ := exists_of_bind_eq_ok h
  obtain ⟨⟨⟩, -, h⟩ := exists_of_bind_eq_ok h
  rw [hvariants, hdata] at h
  have h : cleanInput env shop cart key r variants data s = .ok (after, s') := h
  obtain ⟨⟨⟩, hvalidate, h⟩ := exists_of_bind_eq_ok h
  refine ⟨hargs, hvalidate, ?_⟩
  split at h
  · exact .inl (Prod.mk.inj (Except.ok.inj h)).1.symm
  · cases hadd : addVariantsToCheckout env.texts (variants.map (·.pk)) key r.replace env.reserver
        cart data env.reservationLength s with
    | error e =>
      rw [hadd] at h
      cases h
    | ok result =>
      rw [hadd] at h
      exact .inr (congrArg Except.ok (Except.ok.inj h))

theorem validateOneOfArgs_eq_ok {lines : List CheckoutLineUpdateInput}
    (h : validateOneOfArgs (ε := ε) lines = .ok ()) :
    ∀ line ∈ lines, line.lineId = "" ↔ line.variantId ≠ "" := by
  induction lines with
  | nil => exact fun line hline => absurd hline List.not_mem_nil
  | cons line lines ih =>
    rw [validateOneOfArgs] at h
    split_ifs at h with hboth hneither
    refine List.forall_mem_cons.mpr ⟨?_, ih h⟩
    tauto

/-- The inputs of a request that gets this far name what they are for, if the checkout has lines. -/
theorem accepted_of_validateArgs (hlines : cart.rows ≠ [])
    (hargs : r.validateArgs (ε := ε) = .ok ())
    (hvariants : getVariantsFromLinesInput env shop r = .ok variants) :
    r.Accepted env.texts cart.rows := by
  cases r with
  | add lines => trivial
  | update lines =>
    refine ⟨validateOneOfArgs_eq_ok hargs, fun input hinput type => ?_,
      fun hnil => absurd hnil hlines⟩
    by_cases hempty : input.lineId = ""
    · rw [hempty, env.texts.fromGlobalId_empty]
      exact fun h => by cases h
    · have hmem : input.lineId ∈ (lines.map (·.lineId)).filter (· ≠ "") :=
        List.mem_filter.mpr ⟨List.mem_map_of_mem hinput, decide_eq_true hempty⟩
      obtain ⟨instances, hinstances, -⟩ := exists_of_bind_eq_ok hvariants
      rw [if_neg (List.ne_nil_of_mem hmem)] at hinstances
      obtain ⟨pks, hpks, -⟩ := exists_of_bind_eq_ok hinstances
      have hids := Nodes.resolveGlobalIdsToPrimaryKeys_eq_ok hpks
      have hpk : Nodes.pkText env.texts "CheckoutLine" input.lineId ∈ pks.map some :=
        hids ▸ List.mem_map_of_mem hmem
      obtain ⟨t, -, ht⟩ := List.mem_map.mp hpk
      obtain ⟨hid, hne⟩ := fromGlobalId_of_pkText ht.symm (by decide)
      rw [hid]
      exact fun h => hne (Prod.mk.inj (Option.some.inj h)).2

/-- The lines that are created are of line data with items. -/
theorem exists_data_of_created {texts : Texts} {ids : List ℕ} {replace : Bool} {p : Pending}
    (hp : loop texts ids key replace { objects := cart } data = .ok p) {line : CheckoutLine}
    (hline : line ∈ p.toCreate) :
    ∃ d ∈ data, 0 < d.quantity ∧ d.variantId = some (toString line.variant) := by
  obtain ⟨-, -, created, hcreated, hforall, -⟩ := loop_eq_ok rfl hp
  rw [List.nil_append] at hcreated
  rw [hcreated] at hline
  obtain ⟨d, hd, -, hvariant⟩ := exists_of_forall₂ hforall.flip hline
  obtain ⟨hmem, hcond⟩ := List.mem_filter.mp hd
  exact ⟨d, hmem, of_decide_eq_true (Bool.and_eq_true_iff.mp hcond).2, hvariant⟩

/-- The lines whose quantity is changed are of line data with items. -/
theorem exists_data_of_kept {texts : Texts} {ids : List ℕ} {replace : Bool}
    {es : List (Entry texts cart.rows)} {p : Pending}
    (hp : loop texts ids key replace { objects := cart } (Grouped.addAll {} es).data = .ok p)
    {line : CheckoutLine} (hline : line ∈ (p.keep cart).rows) :
    (∃ old ∈ cart, old.pk = line.pk ∧ old.quantity = line.quantity) ∨
      ∃ d ∈ (Grouped.addAll {} es).data, 0 < d.quantity ∧
        d.variantId = some (toString line.variant) := by
  rw [rows_keep hp] at hline
  obtain ⟨old, hold, rfl⟩ := List.mem_map.mp hline
  obtain ⟨hmem, hstays⟩ := List.mem_filter.mp hold
  have hafter := @quantityAfter_eq texts replace cart es old
  rw [if_pos (of_decide_eq_true hstays), quantityAfter] at hafter
  rw [variant_keptRow, pk_keptRow]
  by_cases hgiven : given (es.map Entry.ask) (.line old.pk) = true
  · right
    rw [if_pos hgiven] at hafter
    have hpos : 0 < asked (es.map Entry.ask) (.line old.pk) := by
      by_contra hnonpos
      rw [if_neg hnonpos] at hafter
      cases hafter
    have htarget : Target.line old.pk ∈ sharedTargets es := by
      obtain ⟨a, ha, hcond⟩ := List.any_eq_true.mp hgiven
      obtain ⟨e, he, rfl⟩ := List.mem_map.mp ha
      have htarget := of_decide_eq_true (Bool.and_eq_true_iff.mp hcond).1
      exact mem_sharedTargets.mpr ⟨⟨e, he, htarget⟩, rfl⟩
    refine ⟨dataFor es (.line old.pk), mem_data.mpr (.inr ⟨_, htarget, rfl⟩), ?_, ?_⟩
    · rwa [quantity_dataFor]
    · rw [variantId_dataFor cart.nodup htarget]
      have hfind : cart.rows.find? (·.pk = old.pk) = some old :=
        Nodes.find?_eq_some_of_unique hmem (decide_eq_true rfl) fun other hother hpk =>
          cart.eq_of_pk_eq hother hmem (of_decide_eq_true hpk)
      rw [Target.variantId, hfind]
      rfl
  · rw [if_neg hgiven] at hafter
    exact .inl ⟨old, hmem, rfl, (Option.some.inj hafter).symm⟩

/-- **The lines after a request** are as they were, or can be purchased, if the pairing does no
harm. -/
theorem purchasable_of_performMutation
    (h : performMutation env shop cart key r s = .ok (after, s'))
    (hvariants : getVariantsFromLinesInput env shop r = .ok variants)
    (hdata : r.getGroupedLinesData env.texts cart.rows = .ok data)
    (hpaired : Paired variants data) {line : CheckoutLine} (hline : line ∈ after) :
    (∃ old ∈ cart, old.pk = line.pk ∧ old.quantity = line.quantity) ∨
      Purchasable shop env.now env.channel line.variant := by
  obtain ⟨hargs, hvalidate, rfl | hadd⟩ := performMutation_eq_ok h hvariants hdata
  · exact .inl ⟨line, hline, rfl, rfl⟩
  obtain ⟨p, hp, hrows⟩ := exists_of_addVariantsToCheckout hadd
  have hpurchasable : (∃ d ∈ data, 0 < d.quantity ∧ d.variantId = some (toString line.variant)) →
      Purchasable shop env.now env.channel line.variant := by
    rintro ⟨d, hd, hpos, hvariant⟩
    obtain ⟨v, hv, hvariant'⟩ := hpaired d hd hpos
    have heq : toString line.variant = toString v := Option.some.inj (hvariant.symm.trans hvariant')
    rw [toString_inj.mp heq]
    exact purchasable_of_validate hvalidate v hv
  rw [Table.mem_def, hrows] at hline
  rcases List.mem_append.mp hline with hline | hline
  · have hlines : cart.rows ≠ [] := by
      rw [rows_keep hp] at hline
      obtain ⟨old, hold, -⟩ := List.mem_map.mp hline
      exact List.ne_nil_of_mem (List.mem_of_mem_filter hold)
    obtain ⟨es, rfl, -⟩ := LinesInput.exists_entries
      (accepted_of_validateArgs hlines hargs hvariants) hdata
    exact (exists_data_of_kept hp hline).imp_right hpurchasable
  · exact .inr (hpurchasable (exists_data_of_created hp hline))

end Accepted

/-! ### What is refused -/

section Refused

variable {σ ε : Type} {oldId : CheckoutLine → Option ℕ} {env : Environment σ ε} {shop : Shop oldId}
  {cart : Cart} {key : ℕ → ℕ} {r : LinesInput} {variants : List Variant}
  {data : List CheckoutLineData} {s : σ}

/-- The request is refused for the quantity of a variant, or because of the variant. -/
def RequestError.IsRefusal : RequestError ε → Prop
  | .check (.zeroQuantity _) | .check (.quantityLimit _) | .check (.insufficientStock _)
  | .unavailable _ _ => True
  | _ => False

/-- **A request is refused because of a variant**: its quantity is not in order, exceeds what a
customer may buy or is not served by the stocks, or it is validated and cannot be purchased. -/
def Causes (env : Environment σ ε) (shop : Shop oldId) (cart : Cart) (r : LinesInput)
    (variants : List Variant) (data : List CheckoutLineData) (v : ℕ) : Prop :=
  let c := env.validation.stockCheck cart.rows r.replace
  let pairs := getVariantsAndTotalQuantities variants data r.replace
  (∃ p ∈ pairs, p.1.pk = v ∧ ¬ if r.replace then 0 ≤ p.2 else 0 < p.2) ∨
  (∃ p ∈ stockPairs env.now pairs, p.1.pk = v ∧ 0 < c.effectiveQuantity p.1 p.2 ∧
    (Stocks.ExceedsLimit shop.purchases c.user p.1 (c.effectiveQuantity p.1 p.2)
        c.globalQuantityLimit ∨
      ¬ Served c shop.toStore ((stockPairs env.now pairs).map (·.1)) p)) ∨
  (v ∈ variantsIdsToValidate variants data ∧ ¬ Purchasable shop env.now env.channel v)

theorem exists_of_validateVariants {right : ℕ → Bool} {message code : String} {ids : List ℕ}
    {e : RequestError ε} (h : validateVariants right message code ids = .error e) :
    ∃ v ∈ ids, right v = false := by
  rw [validateVariants] at h
  split at h
  · cases h
  · rename_i hne
    obtain ⟨v, hv⟩ := List.exists_mem_of_ne_nil _ hne
    obtain ⟨hmem, hright⟩ := List.mem_filter.mp hv
    exact ⟨v, hmem, by simpa using hright⟩

/-- A computation that goes on with a result fails in one of its parts. -/
theorem error_of_bind_eq_error {α β δ : Type} {x : Except δ α} {f : α → Except δ β} {e : δ}
    (h : x.bind f = .error e) : x = .error e ∨ ∃ a, x = .ok a ∧ f a = .error e := by
  cases x with
  | error e' => exact .inl (congrArg Except.error (Except.error.inj h))
  | ok a => exact .inr ⟨a, rfl, h⟩

/-- **What refuses a request** is a variant. -/
theorem exists_causes_of_validate {e : RequestError ε}
    (h : validate env shop cart r variants data = .error e) (he : e.IsRefusal) :
    ∃ v, Causes env shop cart r variants data v := by
  rcases error_of_bind_eq_error h with hrequire | ⟨⟨⟩, -, h⟩
  · rw [requireQuantities] at hrequire
    split at hrequire
    · rw [← Except.error.inj hrequire] at he
      exact absurd he id
    · cases hrequire
  rcases error_of_bind_eq_error h with hcheck | ⟨⟨⟩, -, h⟩
  · rw [Validation.validateCheckoutLines] at hcheck
    have houtcome := @checkLinesQuantity_outcome (env.validation.stockCheck cart.rows r.replace)
      shop.toStore env.now r.replace (getVariantsAndTotalQuantities variants data r.replace)
    generalize checkLinesQuantity (env.validation.stockCheck cart.rows r.replace) shop.toStore
      env.now r.replace (getVariantsAndTotalQuantities variants data r.replace) = result
      at hcheck houtcome
    cases houtcome with
    | zeroQuantity horder _ =>
      obtain ⟨p, hp, hquantity⟩ : ∃ p ∈ getVariantsAndTotalQuantities variants data r.replace,
          ¬ if r.replace then 0 ≤ p.2 else 0 < p.2 := by
        rw [InOrder] at horder
        push Not at horder
        exact horder
      exact ⟨p.1.pk, .inl ⟨p, hp, rfl, hquantity⟩⟩
    | quantityLimit _ hlimits _ =>
      rw [StockCheck.WithinLimits] at hlimits
      push Not at hlimits
      obtain ⟨p, hp, hpos, hexceeds⟩ := hlimits
      exact ⟨p.1.pk, .inr (.inl ⟨p, hp, rfl, hpos, .inl hexceeds⟩)⟩
    | insufficientStock _ _ hserved _ =>
      rw [AllServed] at hserved
      push Not at hserved
      obtain ⟨p, hp, hserved⟩ := hserved
      have hpos : 0 < (env.validation.stockCheck cart.rows r.replace).effectiveQuantity
          p.1 p.2 := by
        by_contra hnonpos
        exact hserved fun hpos => absurd hpos hnonpos
      exact ⟨p.1.pk, .inr (.inl ⟨p, hp, rfl, hpos, .inr hserved⟩)⟩
    | preorder _ _ _ _ e' he' =>
      obtain rfl := Except.error.inj hcheck
      rcases he' with rfl | rfl <;> exact absurd he id
    | ok => cases hcheck
  dsimp only at h
  split at h
  · cases h
  rcases error_of_bind_eq_error h with hpurchase | ⟨⟨⟩, -, h⟩
  · obtain ⟨v, hv, hright⟩ := exists_of_validateVariants hpurchase
    refine ⟨v, .inr (.inr ⟨hv, fun hpurchasable => ?_⟩)⟩
    rw [hpurchasable.forPurchase] at hright
    cases hright
  rcases error_of_bind_eq_error h with hchannel | ⟨⟨⟩, -, hpublished⟩
  · obtain ⟨v, hv, hright⟩ := exists_of_validateVariants hchannel
    refine ⟨v, .inr (.inr ⟨hv, fun hpurchasable => ?_⟩)⟩
    rw [hpurchasable.inChannel] at hright
    cases hright
  · obtain ⟨v, hv, hright⟩ := exists_of_validateVariants hpublished
    refine ⟨v, .inr (.inr ⟨hv, fun hpurchasable => ?_⟩)⟩
    rw [hpurchasable.published] at hright
    cases hright

theorem not_isRefusal_of_validateOneOfArgs {lines : List CheckoutLineUpdateInput}
    {e : RequestError ε} (h : validateOneOfArgs lines = .error e) : ¬ e.IsRefusal := by
  induction lines with
  | nil => cases h
  | cons line lines ih =>
    rw [validateOneOfArgs] at h
    split_ifs at h
    · rw [← Except.error.inj h]
      exact id
    · rw [← Except.error.inj h]
      exact id
    · exact ih h

/-- Errors of other kinds are no refusals. -/
theorem validate_of_performMutation {e : RequestError ε}
    (h : performMutation env shop cart key r s = .error e) (he : e.IsRefusal)
    (hvariants : getVariantsFromLinesInput env shop r = .ok variants)
    (hdata : r.getGroupedLinesData env.texts cart.rows = .ok data) :
    validate env shop cart r variants data = .error e := by
  rcases error_of_bind_eq_error h with hargs | ⟨⟨⟩, -, h⟩
  · cases r with
    | add lines => cases hargs
    | update lines => exact absurd he (not_isRefusal_of_validateOneOfArgs hargs)
  rcases error_of_bind_eq_error h with hprices | ⟨⟨⟩, -, h⟩
  · rw [checkPermissionsForCustomPrices] at hprices
    split at hprices
    · rw [← Except.error.inj hprices] at he
      exact absurd he id
    · cases hprices
  rw [hvariants, hdata] at h
  have h : cleanInput env shop cart key r variants data s = .error e := h
  rcases error_of_bind_eq_error h with hvalidate | ⟨⟨⟩, -, h⟩
  · exact hvalidate
  split at h
  · cases h
  · cases hadd : addVariantsToCheckout env.texts (variants.map (·.pk)) key r.replace env.reserver
        cart data env.reservationLength s with
    | ok result =>
      rw [hadd] at h
      cases h
    | error e' =>
      rw [hadd] at h
      rw [← Except.error.inj h] at he
      exact absurd he id

/-- All inputs of a variant ask for none. -/
def AllZero (asks : List Ask) (cart : Cart) (v : ℕ) : Prop :=
  ∀ a ∈ asks, a.1.variantId cart.rows = some (toString v) → a.2 = some 0

theorem askedOf_of_allZero {asks : List Ask} {v : ℕ} (h : AllZero asks cart v) :
    askedOf asks cart v = 0 := by
  refine sumIf_eq_zero fun a ha hvariant => ?_
  rw [h a ha (of_decide_eq_true hvariant)]
  rfl

/-- On an update a variant that is to have none causes no refusal, if the pairing does no harm. -/
theorem not_causes_of_allZero (hreplace : r.replace = true)
    (haccepted : r.Accepted env.texts cart.rows)
    (hvariants : getVariantsFromLinesInput env shop r = .ok variants)
    (hdata : r.getGroupedLinesData env.texts cart.rows = .ok data)
    (hspared : Spared (r.asks env.texts cart.rows) cart variants data) {v : ℕ}
    (hzero : AllZero (r.asks env.texts cart.rows) cart v) :
    ¬ Causes env shop cart r variants data v := by
  obtain ⟨es, rfl, hasks⟩ := LinesInput.exists_entries haccepted hdata
  have hpairs : ∀ p ∈ getVariantsAndTotalQuantities variants (Grouped.addAll {} es).data r.replace,
      p.1.pk = v → p.2 = 0 := by
    intro p hp hpk
    rw [@getVariantsAndTotalQuantities_eq env.texts cart es r.replace variants
      (nodup_pk_of_getVariants hvariants)] at hp
    obtain ⟨w, -, rfl⟩ := List.mem_map.mp hp
    rw [← hasks]
    obtain rfl : w.pk = v := hpk
    exact askedOf_of_allZero hzero
  rintro (⟨p, hp, hpk, hquantity⟩ | ⟨p, hp, hpk, hpos, -⟩ | ⟨hv, -⟩)
  · rw [if_pos hreplace, hpairs p hp hpk] at hquantity
    exact hquantity le_rfl
  · have hzero' := hpairs p (List.mem_of_mem_filter hp) hpk
    have hstock : (env.validation.stockCheck cart.rows r.replace).replace = true := hreplace
    rw [StockCheck.effectiveQuantity, if_pos hstock, hzero'] at hpos
    exact lt_irrefl 0 hpos
  · obtain ⟨a, ha, hvariant, hne⟩ := hspared v hv
    exact hne (hzero a ha hvariant)

/-- On an addition a variant of which nothing is asked for is refused. -/
theorem zeroQuantity_of_add (hreplace : r.replace = false)
    (haccepted : r.Accepted env.texts cart.rows)
    (hvariants : getVariantsFromLinesInput env shop r = .ok variants)
    (hdata : r.getGroupedLinesData env.texts cart.rows = .ok data) {v : Variant} (hv : v ∈ variants)
    (hasked : ∃ a ∈ r.asks env.texts cart.rows,
      a.1.variantId cart.rows = some (toString v.pk))
    (hzero : AllZero (r.asks env.texts cart.rows) cart v.pk) :
    ∃ e, validate env shop cart r variants data = .error (.check (.zeroQuantity e)) := by
  obtain ⟨es, rfl, hasks⟩ := LinesInput.exists_entries haccepted hdata
  have hcounted : counted r.replace (r.asks env.texts cart.rows) cart v.pk = true := by
    obtain ⟨a, ha, hvariant⟩ := hasked
    refine List.any_eq_true.mpr ⟨a, ha, ?_⟩
    rw [hreplace, decide_eq_true hvariant]
    rfl
  have hpair : (v, 0) ∈ getVariantsAndTotalQuantities variants (Grouped.addAll {} es).data
      r.replace := by
    rw [@getVariantsAndTotalQuantities_eq env.texts cart es r.replace variants
      (nodup_pk_of_getVariants hvariants), ← hasks]
    refine List.mem_map.mpr ⟨v, List.mem_filter.mpr ⟨hv, hcounted⟩, ?_⟩
    rw [askedOf_of_allZero hzero]
  have hrequire : requireQuantities env r (Grouped.addAll {} es).data = .ok () := by
    rw [requireQuantities, hreplace]
    rfl
  have horder : ¬ InOrder r.replace (getVariantsAndTotalQuantities variants
      (Grouped.addAll {} es).data r.replace) := fun horder => by
    have hpos := horder _ hpair
    rw [hreplace] at hpos
    exact lt_irrefl 0 hpos
  rcases checkQuantities_cases r.replace (getVariantsAndTotalQuantities variants
    (Grouped.addAll {} es).data r.replace) with ⟨horder', -⟩ | ⟨-, e, he⟩
  · exact absurd horder' horder
  · refine ⟨e, ?_⟩
    rw [validate, hrequire, Validation.validateCheckoutLines, checkLinesQuantity, he]
    rfl

/-- **What a request lets in, and what refuses it.** If the pairing does no harm, the lines of an
accepted request are as they were or can be purchased; it does none if nothing is asked to be zero.
A request is refused because of a variant; on an update that is none whose inputs all ask for zero,
if the pairing does no harm, and on an addition such a variant is always refused. -/
theorem onlyPurchasable (env : Environment σ ε) (shop : Shop oldId) (cart : Cart) (key : ℕ → ℕ)
    (r : LinesInput) (s : σ) (hvariants : getVariantsFromLinesInput env shop r = .ok variants)
    (hdata : r.getGroupedLinesData env.texts cart.rows = .ok data) :
    (Paired variants data → ∀ after s', performMutation env shop cart key r s = .ok (after, s') →
      ∀ line ∈ after, (∃ old ∈ cart, old.pk = line.pk ∧ old.quantity = line.quantity) ∨
        Purchasable shop env.now env.channel line.variant) ∧
    ((∀ line ∈ cart, line ∈ shop.checkoutLines.toTable) → r.Accepted env.texts cart.rows →
      (∀ d ∈ data, d.quantityToUpdate = true ∧ d.quantity ≠ 0) → Paired variants data) ∧
    (∀ e, performMutation env shop cart key r s = .error e → e.IsRefusal →
      ∃ v, Causes env shop cart r variants data v) ∧
    (r.Accepted env.texts cart.rows → r.replace = true →
      Spared (r.asks env.texts cart.rows) cart variants data →
      ∀ v, AllZero (r.asks env.texts cart.rows) cart v →
        ¬ Causes env shop cart r variants data v) ∧
    (r.Accepted env.texts cart.rows → r.replace = false →
      ∀ v ∈ variants, AllZero (r.asks env.texts cart.rows) cart v.pk →
        (∃ a ∈ r.asks env.texts cart.rows, a.1.variantId cart.rows = some (toString v.pk)) →
        ∃ e, validate env shop cart r variants data = .error (.check (.zeroQuantity e))) := by
  refine ⟨fun hpaired after s' h line hline => ?_, fun hcart haccepted h => ?_,
    fun e h he => ?_, ?_, ?_⟩
  · exact purchasable_of_performMutation h hvariants hdata hpaired hline
  · exact paired_of_ne_zero hcart haccepted hvariants hdata h
  · exact exists_causes_of_validate (validate_of_performMutation h he hvariants hdata) he
  · intro haccepted hreplace hspared v hzero
    exact not_causes_of_allZero hreplace haccepted hvariants hdata hspared hzero
  · intro haccepted hreplace v hv hzero hasked
    exact zeroQuantity_of_add hreplace haccepted hvariants hdata hv hasked hzero

end Refused

/-! ### Mugs and a book -/

/-- A variant's id is its number, and there is the line of mugs. -/
def plainTexts : Texts := Texts.small (fun t =>
  if t = "" then none
  else if t = "mugs" then some ("CheckoutLine", shopTexts.str 1)
  else some ("ProductVariant", t)) rfl

/-- A guest in the shop, whose sets yield their elements in this order. -/
def guest : Environment Unit Unit where
  texts := plainTexts
  globalId v := toString v
  fromGlobalId_globalId v := by
    have hne : toString v ≠ "" := Nat.repr_ne_empty
    have hmugs : toString v ≠ "mugs" := fun h => by
      have hnumber := Nodes.numberOf_toString v
      have hnone : Nodes.numberOf "mugs".toList = none := by decide
      rw [h, hnone] at hnumber
      cases hnumber
    exact (if_neg hne).trans (if_neg hmugs)
  setOrder l := l.dedup
  setOrder_perm l := List.Perm.refl _
  validation := { country := "PL", channelSlug := "main"
                  deliveryMethodInfo := some { hasDeliveryMethod := true } }
  channel := 1
  now := 0
  reserver := noReserver

/-- Mugs and books, with listings of these products. -/
def mugsAndBooks (listed : List ℕ) (h : listed.Nodup) : Shop fun _ => none where
  channels := .singleton { pk := 1, slug := "main" }
  channelWarehouses := .singleton { pk := 1, channel := 1, warehouse := 1 }
  warehouses := .singleton { pk := 1, shippingZones := [1] }
  shippingZones := .singleton { pk := 1, countries := ["PL"], channels := [1] }
  stocks := ⟨[{ pk := 1, warehouse := 1, productVariant := 1, quantity := 3 },
    { pk := 2, warehouse := 1, productVariant := 3, quantity := 6 }], by decide⟩
  catalogue := ⟨[{ pk := 1, product := 1 }, { pk := 3, product := 3 }], by decide⟩
  productListings := ⟨listed.map fun product =>
    { product := product, channel := 1, availableForPurchaseAt := some 0, isPublished := true }, by
      rw [List.map_map]
      exact h.map fun a b hab => (Prod.mk.inj hab).1⟩
  variantListings := ⟨[{ variant := 1, channel := 1, priceAmount := some 5 },
    { variant := 3, channel := 1, priceAmount := some 7 }], by decide⟩
  checkoutLines :=
    { rows := mugsAndShirts.rows
      nodup := mugsAndShirts.nodup
      oldId_unique := by simp
      oldId_lt := by simp }

/-- The mugs go, and a book comes. -/
def bookForMugs : LinesInput :=
  .update [{ lineId := "mugs", quantity := some 0 }, { variantId := "3", quantity := some 1 }]

/-- The cart with a book in place of the mugs. -/
def withBook : Cart where
  rows := [{ pk := 2, variant := 2, quantity := 1 }, { pk := 3, variant := 2, quantity := 4 },
    { pk := 100, variant := 3, quantity := 1 }]
  nodup := by decide

/-- The set yields the book first, so that it is paired with the mugs' quantity of zero and they
with that of the book. So a book comes in that is not published, or mugs that go are refused. And
where none is added of a book, that is refused. -/
theorem not_onlyPurchasable_books :
    (¬ ∀ after s', performMutation guest (mugsAndBooks [1] (by decide)) mugsAndShirts
        fromHundred.key bookForMugs () = .ok (after, s') →
      ∀ line ∈ after, (∃ old ∈ mugsAndShirts, old.pk = line.pk ∧ old.quantity = line.quantity) ∨
        Purchasable (mugsAndBooks [1] (by decide)) guest.now guest.channel line.variant) ∧
    (¬ ∀ v e ids, AllZero (bookForMugs.asks guest.texts mugsAndShirts.rows) mugsAndShirts v →
      performMutation guest (mugsAndBooks [3] (by decide)) mugsAndShirts fromHundred.key bookForMugs
        () = .error (.unavailable e ids) → v ∉ ids) ∧
    (¬ ∀ e, performMutation guest (mugsAndBooks [1, 3] (by decide)) mugsAndShirts fromHundred.key
        (.add [{ variantId := "3", quantity := some 0 }]) ()
      ≠ .error (.check (.zeroQuantity e))) := by
  refine ⟨fun h => ?_, fun h => ?_, fun h => ?_⟩
  · have hmem : { pk := 100, variant := 3, quantity := 1 } ∈ withBook :=
      List.mem_cons_of_mem _ (List.mem_cons_of_mem _ List.mem_cons_self)
    rcases h withBook () rfl _ hmem with ⟨old, hold, hpk, -⟩ | hpurchasable
    · have hpks : ∀ line ∈ mugsAndShirts.rows, line.pk ≠ 100 := by decide
      exact hpks old hold hpk
    · exact absurd hpurchasable.published (by decide)
  · have hasks : bookForMugs.asks guest.texts mugsAndShirts.rows
        = [(.line 1, some 0), (.variant "3", some 1)] := rfl
    refine h 1 _ [1] (fun a ha hvariant => ?_) rfl List.mem_cons_self
    rw [hasks] at ha
    rcases List.mem_cons.mp ha with rfl | ha
    · rfl
    · obtain rfl := List.mem_singleton.mp ha
      exact absurd hvariant (by decide)
  · exact h _ rfl

/-- The book comes first, and the mugs go. -/
def bookFirst : LinesInput :=
  .update [{ variantId := "3", quantity := some 1 }, { lineId := "mugs", quantity := some 0 }]

def bookFirstData : List CheckoutLineData :=
  [{ variantId := some "3", quantity := 1, quantityToUpdate := true },
    { lineId := some (plainTexts.str 1), variantId := some "1", quantityToUpdate := true }]

theorem accepted_bookFirst : bookFirst.Accepted guest.texts mugsAndShirts.rows where
  one := by decide
  ofLine input hinput type h := by
    rcases List.mem_cons.mp hinput with rfl | hinput
    · cases h
    · obtain rfl := List.mem_singleton.mp hinput
      exact str_ne_empty 1 (Prod.mk.inj (Option.some.inj h)).2
  own h := by cases h

/-- The other way round the book is paired with its own line data. It is listed, and the mugs that
go refuse nothing though they are not. -/
theorem onlyPurchasable_books :
    (∀ line ∈ withBook, (∃ old ∈ mugsAndShirts, old.pk = line.pk ∧ old.quantity = line.quantity) ∨
      Purchasable (mugsAndBooks [3] (by decide)) guest.now guest.channel line.variant) ∧
    ¬ Causes guest (mugsAndBooks [3] (by decide)) mugsAndShirts bookFirst
      [{ pk := 3, product := 3 }, { pk := 1, product := 1 }] bookFirstData 1 := by
  have hasks : bookFirst.asks guest.texts mugsAndShirts.rows
      = [(.variant "3", some 1), (.line 1, some 0)] := rfl
  have hids : variantsIdsToValidate [{ pk := 3, product := 3 }, { pk := 1, product := 1 }]
      bookFirstData = [3] := rfl
  have hpaired : Paired [{ pk := 3, product := 3 }, { pk := 1, product := 1 }] bookFirstData := by
    rw [Paired, hids]
    decide
  have hspared : Spared (bookFirst.asks guest.texts mugsAndShirts.rows) mugsAndShirts
      [{ pk := 3, product := 3 }, { pk := 1, product := 1 }] bookFirstData := by
    rw [Spared, hasks, hids]
    decide
  have hzero : AllZero (bookFirst.asks guest.texts mugsAndShirts.rows) mugsAndShirts 1 := by
    rw [AllZero, hasks]
    decide
  obtain ⟨haccept, -, -, hrefuse, -⟩ := onlyPurchasable guest (mugsAndBooks [3] (by decide))
    mugsAndShirts fromHundred.key bookFirst ()
    (rfl : getVariantsFromLinesInput guest (mugsAndBooks [3] (by decide)) bookFirst
      = .ok [{ pk := 3, product := 3 }, { pk := 1, product := 1 }])
    (rfl : bookFirst.getGroupedLinesData guest.texts mugsAndShirts.rows = .ok bookFirstData)
  exact ⟨haccept hpaired withBook () rfl, hrefuse accepted_bookFirst rfl hspared 1 hzero⟩

end CartLines

end Aixinwu
