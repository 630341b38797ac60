import Aixinwu.Lib.Aggregates
import Aixinwu.Warehouse.Models
import Mathlib

/-!
# Preorders

`allocate_preorders` of `saleor/warehouse/management.py`. A preorder line is allocated to the listing
of its variant in the channel of the order. Two bounds are tested: what is allocated and reserved
for the listing against the threshold of the listing, and what is allocated and reserved for the
variant in all channels against the global threshold. The maps they are tested with are made once
for the whole order, so each line is tested as if it were the only one.

That is enough where every variant is on one line. Where it is on several, the lines pass one by
one and can exceed a threshold together; the bounds survive exactly if those lines fit together.

The webhooks of the operation are left out, it has none that writes.

## Main definitions

* `allocatePreorders` and its parts
* `preorderAllocated`, `globalAllocated`, `WithinThresholds`
* `FitTogether`

## Main results

* `allocatePreorders_eq_ok` — what an allocation that succeeds adds
* `allocatePreorders_within_iff`
-/

namespace Aixinwu

namespace Stocks

/-! ### The operation -/

/-- An instance of `PreorderAllocation` before it is saved. -/
structure UnsavedPreorderAllocation where
  orderLine : ℕ
  productVariantChannelListing : ℕ
  quantity : ℤ
deriving DecidableEq, Repr

/-- The row that is saved, if the column takes the quantity. -/
def UnsavedPreorderAllocation.row? (a : UnsavedPreorderAllocation) : Option PreorderAllocation :=
  if 0 ≤ a.quantity then
    some {
      orderLine := a.orderLine
      quantity := a.quantity.toNat
      productVariantChannelListing := a.productVariantChannelListing }
  else none

/-- `PreorderAllocation.objects.bulk_create(allocations)`. -/
def bulkCreatePreorderAllocations (db : Db) (allocations : List UnsavedPreorderAllocation) :
    Except AllocateError Db :=
  match allocations.mapM (·.row?) with
  | none => .error .integrityError
  | some rows =>
    match db.preorderAllocations.insertAll rows with
    | none => .error .integrityError
    | some t => .ok { db with preorderAllocations := t }

/-- `get_order_lines_with_preorder`. -/
def getOrderLinesWithPreorder (now : Time) (orderLinesInfo : List OrderLineInfo) :
    List OrderLineInfo :=
  orderLinesInfo.filter fun info => info.variant.any (·.isPreorderActive now)

/-- `exclude_checkout_lines(checkout_lines)` keeps a reservation of this line. -/
def excludeCheckoutLines (checkoutLines : Option (List ℕ)) (checkoutLine : ℕ) : Bool :=
  match checkoutLines with
  | none => true
  | some lines => checkoutLine ∉ lines

/-- The listings of some variants, in any channel. -/
def variantsListings (db : Db) (variants : List ℕ) : List ProductVariantChannelListing :=
  db.channelListings.rows.filter fun l => l.variant ∈ variants

/-- `quantity_allocation_for_channel[listing]`. -/
def quantityAllocationForChannel (db : Db) (listingsId : List ℕ) (listing : ℕ) : ℤ :=
  sumIf (fun a => decide (a.productVariantChannelListing = listing))
    (fun a : PreorderAllocation => (a.quantity : ℤ))
    (db.preorderAllocations.rows.filter fun a =>
      decide (a.productVariantChannelListing ∈ listingsId) && decide (0 < a.quantity))

/-- `listings_reservations[listing]`. -/
def listingsReservations (db : Db) (now : Time) (checkReservations : Bool)
    (checkoutLines : Option (List ℕ)) (listingsId : List ℕ) (listing : ℕ) : ℤ :=
  if checkReservations then
    sumIf (fun r => decide (r.productVariantChannelListing = listing))
      (fun r : PreorderReservation => (r.quantityReserved : ℤ))
      (db.preorderReservations.rows.filter fun r =>
        decide (r.productVariantChannelListing ∈ listingsId) && decide (0 < r.quantityReserved)
          && decide (now < r.reservedUntil) && excludeCheckoutLines checkoutLines r.checkoutLine)
  else 0

/-- `variants_to_channel_listings[variant]`: the last listing of the variant in the channel. -/
def variantToChannelListing (db : Db) (channelSlug : String) (variant : ℕ) :
    Option ProductVariantChannelListing :=
  (db.channelListings.rows.filter fun l =>
    decide (l.variant = variant) && (db.channels.find? l.channel).any (·.slug = channelSlug)).getLast?

/-- What is left of a threshold. -/
def availability (threshold taken reserved : ℤ) : ℤ := max (threshold - taken - reserved) 0

/-- `_create_preorder_allocation`. -/
def createPreorderAllocation (info : OrderLineInfo) (variant : ProductVariant)
    (variantChannelData : ℕ × Option ℤ) (variantGlobalAllocation : ℤ)
    (variantsChannelListings : List ℕ) (quantityAllocationForChannel listingsReservations : ℕ → ℤ) :
    Except InsufficientStockData UnsavedPreorderAllocation :=
  let quantity := info.quantity
  let (channelListingId, channelQuantityThreshold) := variantChannelData
  let channelAvailability := channelQuantityThreshold.map fun threshold =>
    availability threshold (quantityAllocationForChannel channelListingId)
      (listingsReservations channelListingId)
  let globalAvailability := variant.preorderGlobalThreshold.map fun threshold =>
    availability threshold variantGlobalAllocation
      (variantsChannelListings.map listingsReservations).sum
  match channelAvailability.filter (· < quantity), globalAvailability.filter (· < quantity) with
  | some available, _ => .error { availableQuantity := available, variant := some variant }
  | none, some available => .error { availableQuantity := available, variant := some variant }
  | none, none =>
    .ok {
      orderLine := info.line
      productVariantChannelListing := channelListingId
      quantity }

/-- The loop over the lines: the allocations, and what is insufficient. -/
def createPreorderAllocations
    (create : OrderLineInfo → Except AllocateError
      (Except InsufficientStockData UnsavedPreorderAllocation)) :
    List OrderLineInfo →
      Except AllocateError (List UnsavedPreorderAllocation × List InsufficientStockData)
  | [] => .ok ([], [])
  | info :: infos =>
    match create info, createPreorderAllocations create infos with
    | .error e, _ => .error e
    | .ok _, .error e => .error e
    | .ok (.ok allocation), .ok (allocations, insufficient) =>
      .ok (allocation :: allocations, insufficient)
    | .ok (.error item), .ok (allocations, insufficient) =>
      .ok (allocations, item :: insufficient)

/-- One turn of the loop, with the maps made from the database. -/
def createFor (db : Db) (now : Time) (channelSlug : String) (checkReservations : Bool)
    (checkoutLines : Option (List ℕ)) (variants : List ℕ) (info : OrderLineInfo) :
    Except AllocateError (Except InsufficientStockData UnsavedPreorderAllocation) :=
  let listingsId := (variantsListings db variants).map (·.pk)
  let allocated := quantityAllocationForChannel db listingsId
  let reserved := listingsReservations db now checkReservations checkoutLines listingsId
  match info.variant with
  | none => .error .keyError
  | some variant =>
    let channelListings := ((variantsListings db variants).filter (·.variant = variant.pk)).map (·.pk)
    match variantToChannelListing db channelSlug variant.pk with
    | none => .error .keyError
    | some listing =>
      .ok (createPreorderAllocation info variant (listing.pk, listing.preorderQuantityThreshold)
        (channelListings.map allocated).sum channelListings allocated reserved)

/-- `allocate_preorders`. -/
def allocatePreorders (orderLinesInfo : List OrderLineInfo) (channelSlug : String)
    (checkReservations : Bool) (checkoutLines : Option (List ℕ)) (now : Time) (db : Db) :
    Except AllocateError Db :=
  let infos := getOrderLinesWithPreorder now orderLinesInfo
  let variants := infos.filterMap fun info => info.variant.map (·.pk)
  match createPreorderAllocations
      (createFor db now channelSlug checkReservations checkoutLines variants) infos with
  | .error e => .error e
  | .ok (allocations, []) => bulkCreatePreorderAllocations db allocations
  | .ok (_, item :: items) => .error (.insufficientStock (item :: items))

/-! ### What is allocated -/

/-- What is allocated of a listing. -/
def preorderAllocated (db : Db) (listing : ℕ) : ℤ :=
  sumIf (fun a => decide (a.productVariantChannelListing = listing))
    (fun a : PreorderAllocation => (a.quantity : ℤ)) db.preorderAllocations.rows

/-- What is allocated of a variant in all channels. -/
def globalAllocated (db : Db) (variant : ℕ) : ℤ :=
  sumIf (fun a => decide (a.productVariantChannelListing
      ∈ (variantsListings db [variant]).map (·.pk)))
    (fun a : PreorderAllocation => (a.quantity : ℤ)) db.preorderAllocations.rows

/-- The thresholds hold. -/
structure WithinThresholds (db : Db) : Prop where
  channel : ∀ l ∈ db.channelListings, ∀ t, l.preorderQuantityThreshold = some t →
    preorderAllocated db l.pk ≤ t
  all : ∀ v ∈ db.variants, ∀ t, v.preorderGlobalThreshold = some t → globalAllocated db v.pk ≤ t

/-- The line has its allocation, of its quantity. -/
def LineAllocated (db : Db) (channelSlug : String) (info : OrderLineInfo) : Prop :=
  ∃ variant listing a, info.variant = some variant ∧
    variantToChannelListing db channelSlug variant.pk = some listing ∧
    db.preorderAllocations.find? (info.line, listing.pk) = some a ∧ (a.quantity : ℤ) = info.quantity

/-- What the lines with a variant ask for together. -/
def requested (infos : List OrderLineInfo) (variant : ℕ) : ℤ :=
  sumIf (fun info => info.variant.any (·.pk = variant)) (·.quantity) infos

/-- Where several lines have the same variant, they are within its thresholds together. -/
def FitTogether (db : Db) (channelSlug : String) (infos : List OrderLineInfo) : Prop :=
  ∀ variant, 1 < (linesWith infos variant).length →
    (∀ l, variantToChannelListing db channelSlug variant = some l →
      ∀ t, l.preorderQuantityThreshold = some t →
        preorderAllocated db l.pk + requested infos variant ≤ t) ∧
    ∀ v ∈ db.variants, v.pk = variant → ∀ t, v.preorderGlobalThreshold = some t →
      globalAllocated db variant + requested infos variant ≤ t

variable {db db' : Db} {now : Time} {channelSlug : String} {check : Bool}
  {checkoutLines : Option (List ℕ)} {infos : List OrderLineInfo}

theorem variantToChannelListing_eq_some {variant : ℕ} {l : ProductVariantChannelListing}
    (h : variantToChannelListing db channelSlug variant = some l) :
    l ∈ db.channelListings ∧ l.variant = variant := by
  obtain ⟨hmem, hl⟩ := List.mem_filter.mp (List.mem_of_getLast? h)
  exact ⟨hmem, by simpa using (Bool.and_eq_true_iff.mp hl).1⟩

theorem mem_variantsListings {variant : ℕ} {l : ProductVariantChannelListing} :
    l ∈ variantsListings db [variant] ↔ l ∈ db.channelListings ∧ l.variant = variant := by
  rw [variantsListings, List.mem_filter]
  simp [Table.mem_def]

/-- Among the listings of several variants those of one of them are all its listings. -/
theorem filter_variantsListings {variants : List ℕ} {variant : ℕ} (h : variant ∈ variants) :
    (variantsListings db variants).filter (·.variant = variant) = variantsListings db [variant] := by
  rw [variantsListings, List.filter_filter, variantsListings]
  refine List.filter_congr fun l _ => ?_
  by_cases hl : l.variant = variant
  · simp [hl, h]
  · simp [hl]

theorem nodup_variantsListings (variants : List ℕ) :
    ((variantsListings db variants).map (·.pk)).Nodup :=
  (List.filter_sublist.map HasPk.pk).nodup db.channelListings.nodup

/-! ### What the maps of the operation are -/

theorem quantityAllocationForChannel_eq {listingsId : List ℕ} {listing : ℕ}
    (h : listing ∈ listingsId) :
    quantityAllocationForChannel db listingsId listing = preorderAllocated db listing := by
  rw [quantityAllocationForChannel, sumIf_filter]
  refine sumIf_of_subset (fun a _ ha => (Bool.and_eq_true_iff.mp ha).1) fun a _ ha hno => ?_
  have hlisting : a.productVariantChannelListing = listing := of_decide_eq_true ha
  have hzero : a.quantity = 0 := by
    by_contra hne
    refine hno ?_
    simp [hlisting, h, Nat.pos_of_ne_zero hne]
  rw [hzero]
  rfl

theorem listingsReservations_nonneg (listingsId : List ℕ) (listing : ℕ) :
    0 ≤ listingsReservations db now check checkoutLines listingsId listing := by
  rw [listingsReservations]
  split
  · exact sumIf_nonneg fun r _ => Int.natCast_nonneg _
  · exact le_rfl

/-- The allocations of the listings of a variant, added up. -/
theorem sum_quantityAllocationForChannel {variants : List ℕ} {variant : ℕ}
    (h : variant ∈ variants) :
    (((variantsListings db [variant]).map (·.pk)).map
      (quantityAllocationForChannel db ((variantsListings db variants).map (·.pk)))).sum
      = globalAllocated db variant := by
  have hmap : ∀ l ∈ (variantsListings db [variant]).map (·.pk),
      quantityAllocationForChannel db ((variantsListings db variants).map (·.pk)) l
        = preorderAllocated db l := by
    intro l hl
    obtain ⟨row, hrow, rfl⟩ := List.mem_map.mp hl
    rw [← filter_variantsListings h] at hrow
    exact quantityAllocationForChannel_eq (List.mem_map_of_mem (List.mem_of_mem_filter hrow))
  rw [List.map_congr_left hmap]
  exact sum_sumIf_key PreorderAllocation.productVariantChannelListing _ (nodup_variantsListings [variant]) _

theorem availability_le {threshold taken reserved : ℤ} (h : 0 ≤ reserved) :
    availability threshold taken reserved ≤ max (threshold - taken) 0 :=
  max_le_max (sub_le_self _ h) le_rfl

/-! ### What is added -/

/-- The row is the allocation of a line that passed its tests. -/
structure AllocationFor (db : Db) (channelSlug : String) (info : OrderLineInfo)
    (a : PreorderAllocation) (variant : ProductVariant) (listing : ProductVariantChannelListing) :
    Prop where
  ofVariant : info.variant = some variant
  inChannel : variantToChannelListing db channelSlug variant.pk = some listing
  line : a.orderLine = info.line
  key : a.productVariantChannelListing = listing.pk
  quantity : (a.quantity : ℤ) = info.quantity
  channel : ∀ t, listing.preorderQuantityThreshold = some t →
    info.quantity ≤ max (t - preorderAllocated db listing.pk) 0
  all : ∀ t, variant.preorderGlobalThreshold = some t →
    info.quantity ≤ max (t - globalAllocated db variant.pk) 0

theorem createPreorderAllocation_eq_ok {info : OrderLineInfo} {variant : ProductVariant}
    {data : ℕ × Option ℤ} {globalAllocation : ℤ} {listings : List ℕ} {allocated reserved : ℕ → ℤ}
    {a : UnsavedPreorderAllocation}
    (h : createPreorderAllocation info variant data globalAllocation listings allocated reserved
      = .ok a) :
    a = ⟨info.line, data.1, info.quantity⟩ ∧
    (∀ t, data.2 = some t →
      info.quantity ≤ availability t (allocated data.1) (reserved data.1)) ∧
    ∀ t, variant.preorderGlobalThreshold = some t →
      info.quantity ≤ availability t globalAllocation (listings.map reserved).sum := by
  rw [createPreorderAllocation] at h
  split at h
  · cases h
  · cases h
  · rename_i hchannel hall
    refine ⟨(Except.ok.inj h).symm, fun t ht => ?_, fun t ht => ?_⟩
    · rw [ht, Option.map_some, Option.filter_eq_none_iff] at hchannel
      simpa using hchannel _ rfl
    · rw [ht, Option.map_some, Option.filter_eq_none_iff] at hall
      simpa using hall _ rfl

theorem createFor_eq_ok {variants : List ℕ} {info : OrderLineInfo} {a : UnsavedPreorderAllocation}
    {row : PreorderAllocation} (hvariants : ∀ v, info.variant = some v → v.pk ∈ variants)
    (h : createFor db now channelSlug check checkoutLines variants info = .ok (.ok a))
    (hrow : a.row? = some row) :
    ∃ variant listing, AllocationFor db channelSlug info row variant listing := by
  rw [createFor] at h
  split at h
  · cases h
  rename_i variant hvariant
  split at h
  · cases h
  rename_i listing hlisting
  have hmem : variant.pk ∈ variants := hvariants variant hvariant
  obtain ⟨rfl, hchannel, hall⟩ := createPreorderAllocation_eq_ok (Except.ok.inj h)
  have hkey : listing.pk ∈ (variantsListings db variants).map (·.pk) := by
    obtain ⟨hl, hlv⟩ := variantToChannelListing_eq_some hlisting
    exact List.mem_map_of_mem (List.mem_filter.mpr ⟨hl, by simp [hlv, hmem]⟩)
  rw [UnsavedPreorderAllocation.row?] at hrow
  split at hrow
  · rename_i hpos
    obtain rfl := Option.some.inj hrow
    refine ⟨variant, listing, hvariant, hlisting, rfl, rfl, Int.toNat_of_nonneg hpos, ?_, ?_⟩
    · intro t ht
      have hle := hchannel t ht
      rw [quantityAllocationForChannel_eq hkey] at hle
      exact hle.trans (availability_le (listingsReservations_nonneg _ _))
    · intro t ht
      have hle := hall t ht
      rw [filter_variantsListings hmem, sum_quantityAllocationForChannel hmem] at hle
      refine hle.trans (availability_le (List.sum_nonneg fun x hx => ?_))
      obtain ⟨l, -, rfl⟩ := List.mem_map.mp hx
      exact listingsReservations_nonneg _ _
  · cases hrow

theorem createPreorderAllocations_eq_ok {create : OrderLineInfo → Except AllocateError
      (Except InsufficientStockData UnsavedPreorderAllocation)} {infos : List OrderLineInfo}
    {allocations : List UnsavedPreorderAllocation}
    (h : createPreorderAllocations create infos = .ok (allocations, [])) :
    List.Forall₂ (fun info a => create info = .ok (.ok a)) infos allocations := by
  induction infos generalizing allocations with
  | nil =>
    rw [createPreorderAllocations] at h
    obtain rfl := (Prod.mk.inj (Except.ok.inj h)).1
    exact .nil
  | cons info infos ih =>
    rw [createPreorderAllocations] at h
    split at h
    · cases h
    · cases h
    · rename_i a rest insufficient hcreate hrest
      obtain ⟨rfl, rfl⟩ := Prod.mk.inj (Except.ok.inj h)
      exact .cons hcreate (ih hrest)
    · cases (Prod.mk.inj (Except.ok.inj h)).2

theorem bulkCreatePreorderAllocations_eq_ok {allocations : List UnsavedPreorderAllocation}
    (h : bulkCreatePreorderAllocations db allocations = .ok db') :
    ∃ rows t, db' = { db with preorderAllocations := t } ∧
      t.rows = db.preorderAllocations.rows ++ rows ∧
      List.Forall₂ (fun a row => a.row? = some row) allocations rows := by
  rw [bulkCreatePreorderAllocations] at h
  split at h
  · cases h
  rename_i rows hrows
  split at h
  · cases h
  rename_i t ht
  refine ⟨rows, t, (Except.ok.inj h).symm, Table.insertAll_eq_some.mp ht, ?_⟩
  clear h ht
  induction allocations generalizing rows with
  | nil =>
    obtain rfl := Option.some.inj hrows
    exact .nil
  | cons a allocations ih =>
    simp only [List.mapM_cons, Option.bind_eq_bind, Option.bind_eq_some_iff] at hrows
    obtain ⟨row, hrow, rest, hrest, heq⟩ := hrows
    obtain rfl := Option.some.inj heq
    exact .cons hrow (ih rest hrest)

/-- The allocations that are created, once saved. -/
theorem allocationFor_of_saved {variants : List ℕ} {infos : List OrderLineInfo}
    {allocations : List UnsavedPreorderAllocation} {rows : List PreorderAllocation}
    (hvariants : ∀ info ∈ infos, ∀ v, info.variant = some v → v.pk ∈ variants)
    (hcreate : List.Forall₂ (fun info a =>
      createFor db now channelSlug check checkoutLines variants info = .ok (.ok a))
      infos allocations)
    (hrows : List.Forall₂ (fun a row => a.row? = some row) allocations rows) :
    List.Forall₂ (fun info row => ∃ variant listing,
      AllocationFor db channelSlug info row variant listing) infos rows := by
  induction hcreate generalizing rows with
  | nil =>
    cases hrows
    exact .nil
  | cons hinfo _ ih =>
    obtain ⟨row, rest, hrow, hrest, rfl⟩ := List.forall₂_cons_left_iff.mp hrows
    exact .cons (createFor_eq_ok (hvariants _ List.mem_cons_self) hinfo hrow)
      (ih (fun info hinfo => hvariants info (List.mem_cons_of_mem _ hinfo)) hrest)

/-- **What is added**: a row for each preorder line, in order. -/
theorem allocatePreorders_eq_ok
    (h : allocatePreorders infos channelSlug check checkoutLines now db = .ok db') :
    ∃ rows t, db' = { db with preorderAllocations := t } ∧
      t.rows = db.preorderAllocations.rows ++ rows ∧
      List.Forall₂ (fun info row => ∃ variant listing,
        AllocationFor db channelSlug info row variant listing)
        (getOrderLinesWithPreorder now infos) rows := by
  rw [allocatePreorders] at h
  split at h
  · cases h
  · rename_i allocations hcreate
    obtain ⟨rows, t, hdb, ht, hrows⟩ := bulkCreatePreorderAllocations_eq_ok h
    refine ⟨rows, t, hdb, ht,
      allocationFor_of_saved ?_ (createPreorderAllocations_eq_ok hcreate) hrows⟩
    intro info hinfo v hv
    exact List.mem_filterMap.mpr ⟨info, hinfo, by rw [hv]; rfl⟩
  · cases h

/-! ### What the rows add to the sums -/

section Sums

variable {rows : List PreorderAllocation}

/-- The rows of a listing are those of the lines with its variant, if they go to that listing. -/
theorem sumIf_listing_rows
    (hrows : List.Forall₂ (fun info row => ∃ variant listing,
      AllocationFor db channelSlug info row variant listing) infos rows)
    {l : ProductVariantChannelListing} (hl : l ∈ db.channelListings) :
    sumIf (fun a => decide (a.productVariantChannelListing = l.pk))
        (fun a : PreorderAllocation => (a.quantity : ℤ)) rows
      = if variantToChannelListing db channelSlug l.variant = some l then requested infos l.variant
        else 0 := by
  by_cases hto : variantToChannelListing db channelSlug l.variant = some l
  · rw [if_pos hto]
    refine (sumIf_forall₂ hrows ?_ ?_).symm
    · rintro info row ⟨variant, listing, h⟩
      obtain ⟨hmem, hvariant⟩ := variantToChannelListing_eq_some h.inChannel
      rw [h.ofVariant, h.key]
      refine decide_eq_decide.mpr ⟨fun hpk => ?_, fun hpk => ?_⟩
      · have hin := h.inChannel
        rw [show variant.pk = l.variant from hpk, hto] at hin
        rw [Option.some.inj hin]
      · rw [← hvariant, Table.eq_of_pk_eq hmem hl hpk]
    · rintro info row ⟨variant, listing, h⟩ -
      exact h.quantity.symm
  · rw [if_neg hto]
    refine sumIf_eq_zero fun row hrow hkey => absurd ?_ hto
    obtain ⟨info, -, variant, listing, h⟩ := exists_of_forall₂ hrows.flip hrow
    obtain ⟨hmem, hvariant⟩ := variantToChannelListing_eq_some h.inChannel
    obtain rfl := Table.eq_of_pk_eq hmem hl (h.key.symm.trans (of_decide_eq_true hkey))
    rw [hvariant]
    exact h.inChannel

/-- The rows of a variant are those of the lines with it. -/
theorem sumIf_variant_rows
    (hrows : List.Forall₂ (fun info row => ∃ variant listing,
      AllocationFor db channelSlug info row variant listing) infos rows) (variant : ℕ) :
    sumIf (fun a => decide (a.productVariantChannelListing
        ∈ (variantsListings db [variant]).map (·.pk)))
        (fun a : PreorderAllocation => (a.quantity : ℤ)) rows
      = requested infos variant := by
  refine (sumIf_forall₂ hrows ?_ ?_).symm
  · rintro info row ⟨v, listing, h⟩
    obtain ⟨hmem, hvariant⟩ := variantToChannelListing_eq_some h.inChannel
    rw [h.ofVariant, h.key]
    refine decide_eq_decide.mpr ⟨fun hpk => ?_, fun hin => ?_⟩
    · exact List.mem_map_of_mem (mem_variantsListings.mpr ⟨hmem, hvariant.trans hpk⟩)
    · obtain ⟨l, hl, hpk⟩ := List.mem_map.mp hin
      obtain ⟨hlmem, hlvariant⟩ := mem_variantsListings.mp hl
      obtain rfl := Table.eq_of_pk_eq hlmem hmem hpk
      exact hvariant.symm.trans hlvariant
  · rintro info row ⟨v, listing, h⟩ -
    exact h.quantity.symm

/-- A variant on one line: the line asks for all that is asked for. -/
theorem requested_of_single {variant : ℕ} (hone : ¬ 1 < (linesWith infos variant).length) :
    requested infos variant = 0 ∨
      ∃ info ∈ infos, info.variant.any (·.pk = variant) ∧
        requested infos variant = info.quantity := by
  rw [requested, sumIf, ← linesWith]
  rcases hlines : linesWith infos variant with _ | ⟨info, _ | ⟨info', rest⟩⟩
  · exact Or.inl rfl
  · have hinfo : info ∈ linesWith infos variant := hlines ▸ List.mem_singleton_self info
    obtain ⟨hmem, hvariant⟩ := List.mem_filter.mp hinfo
    exact Or.inr ⟨info, hmem, hvariant, by simp⟩
  · rw [hlines] at hone
    exact absurd (by simp) hone

end Sums

/-! ### The thresholds -/

/-- A line that passes its test keeps a bound that held. -/
theorem add_le_of_le_max {quantity taken threshold : ℤ} (h : quantity ≤ max (threshold - taken) 0)
    (hle : taken ≤ threshold) : taken + quantity ≤ threshold := by
  have hmax : max (threshold - taken) 0 = threshold - taken := max_eq_left (sub_nonneg.mpr hle)
  omega

/-- **The thresholds still hold, and each line has its allocation, exactly if** the lines that share
a variant are within its thresholds together. -/
theorem allocatePreorders_within_iff
    (h : allocatePreorders infos channelSlug check checkoutLines now db = .ok db')
    (hwithin : WithinThresholds db)
    (hvariants : ∀ info ∈ infos, ∀ v, info.variant = some v → v ∈ db.variants) :
    (WithinThresholds db' ∧
        ∀ info ∈ getOrderLinesWithPreorder now infos, LineAllocated db' channelSlug info) ↔
      FitTogether db channelSlug (getOrderLinesWithPreorder now infos) := by
  obtain ⟨rows, t, rfl, ht, hrows⟩ := allocatePreorders_eq_ok h
  have hvariants' : ∀ info ∈ getOrderLinesWithPreorder now infos, ∀ v, info.variant = some v →
      v ∈ db.variants := fun info hinfo => hvariants info (List.mem_of_mem_filter hinfo)
  generalize getOrderLinesWithPreorder now infos = lines at hrows hvariants' ⊢
  have hlisting : ∀ l ∈ db.channelListings,
      preorderAllocated { db with preorderAllocations := t } l.pk = preorderAllocated db l.pk
        + if variantToChannelListing db channelSlug l.variant = some l then
            requested lines l.variant else 0 := by
    intro l hl
    rw [← sumIf_listing_rows hrows hl, preorderAllocated, ht, sumIf_append]
    rfl
  have hglobal : ∀ v, globalAllocated { db with preorderAllocations := t } v
      = globalAllocated db v + requested lines v := by
    intro v
    rw [← sumIf_variant_rows hrows, globalAllocated, ht, sumIf_append]
    rfl
  constructor
  · rintro ⟨⟨hchannel, hall⟩, -⟩ variant -
    refine ⟨fun l hto threshold hthreshold => ?_, ?_⟩
    · obtain ⟨hl, rfl⟩ := variantToChannelListing_eq_some hto
      have hle := hchannel l hl threshold hthreshold
      rwa [hlisting l hl, if_pos hto] at hle
    · rintro v hv rfl threshold hthreshold
      have hle := hall v hv threshold hthreshold
      rwa [hglobal] at hle
  · intro hfit
    refine ⟨⟨fun l hl threshold hthreshold => ?_, fun v hv threshold hthreshold => ?_⟩, ?_⟩
    · rw [hlisting l hl]
      have hbefore := hwithin.channel l hl threshold hthreshold
      by_cases hto : variantToChannelListing db channelSlug l.variant = some l
      · rw [if_pos hto]
        by_cases hmany : 1 < (linesWith lines l.variant).length
        · exact (hfit l.variant hmany).1 l hto threshold hthreshold
        · rcases requested_of_single hmany with hzero | ⟨info, hinfo, hvariant, hone⟩
          · rwa [hzero, add_zero]
          · obtain ⟨row, -, v, listing, hfor⟩ := exists_of_forall₂ hrows hinfo
            have hv : v.pk = l.variant := by
              rw [hfor.ofVariant] at hvariant
              exact of_decide_eq_true hvariant
            have hsame : listing = l := by
              have hin := hfor.inChannel
              rw [hv, hto] at hin
              exact (Option.some.inj hin).symm
            rw [hone]
            exact add_le_of_le_max (hsame ▸ hfor.channel threshold (hsame ▸ hthreshold)) hbefore
      · rwa [if_neg hto, add_zero]
    · rw [hglobal]
      have hbefore := hwithin.all v hv threshold hthreshold
      by_cases hmany : 1 < (linesWith lines v.pk).length
      · exact (hfit v.pk hmany).2 v hv rfl threshold hthreshold
      · rcases requested_of_single hmany with hzero | ⟨info, hinfo, hvariant, hone⟩
        · rwa [hzero, add_zero]
        · obtain ⟨row, -, v', listing, hfor⟩ := exists_of_forall₂ hrows hinfo
          have hsame : v' = v := by
            rw [hfor.ofVariant] at hvariant
            exact Table.eq_of_pk_eq (hvariants' info hinfo v' hfor.ofVariant) hv
              (of_decide_eq_true hvariant)
          rw [hone]
          exact add_le_of_le_max (hsame ▸ hfor.all threshold (hsame ▸ hthreshold)) hbefore
    · intro info hinfo
      obtain ⟨row, hrow, v, listing, hfor⟩ := exists_of_forall₂ hrows hinfo
      refine ⟨v, listing, row, hfor.ofVariant, hfor.inChannel, ?_, hfor.quantity⟩
      refine Table.find?_eq_some.mpr ⟨?_, ?_⟩
      · exact Table.mem_def.mpr (ht ▸ List.mem_append_right _ hrow)
      · exact Prod.ext hfor.line hfor.key

/-- A variant with a threshold of 3 in its channel. -/
def preorderDb : Db where
  channels := Table.singleton { pk := 1, slug := "default" }
  variants := Table.singleton { pk := 2, isPreorder := true }
  channelListings :=
    Table.singleton { pk := 3, variant := 2, channel := 1, preorderQuantityThreshold := some 3 }

/-- A line of the variant for 2 items. -/
def preorderLine (line : ℕ) : OrderLineInfo :=
  { line, quantity := 2, variant := some { pk := 2, isPreorder := true } }

theorem withinThresholds_preorderDb : WithinThresholds preorderDb := by
  refine ⟨fun l hl t ht => ?_, fun v hv t ht => ?_⟩
  · obtain rfl := List.mem_singleton.mp (show l ∈ preorderDb.channelListings.rows from hl)
    obtain rfl := Option.some.inj (ht.symm.trans rfl)
    decide
  · obtain rfl := List.mem_singleton.mp (show v ∈ preorderDb.variants.rows from hv)
    cases ht

/-- One line is within the threshold. -/
theorem allocatePreorders_within_oneLine :
    (WithinThresholds { preorderDb with
        preorderAllocations := Table.singleton ⟨4, 2, 3⟩ } ∧
      ∀ info ∈ getOrderLinesWithPreorder 0 [preorderLine 4],
        LineAllocated { preorderDb with
          preorderAllocations := Table.singleton ⟨4, 2, 3⟩ } "default" info) ↔
      FitTogether preorderDb "default" (getOrderLinesWithPreorder 0 [preorderLine 4]) :=
  allocatePreorders_within_iff
    (rfl : allocatePreorders [preorderLine 4] "default" true none 0 preorderDb = .ok _)
    withinThresholds_preorderDb fun info hinfo v hv => by
      obtain rfl := List.mem_singleton.mp hinfo
      obtain rfl := Option.some.inj hv
      exact List.mem_singleton_self _

/-- Two lines of 2 are allocated, against a threshold of 3. -/
theorem allocatePreorders_within_twoLines :
    ¬ ∀ (infos : List OrderLineInfo) (channelSlug : String) (check : Bool)
        (checkoutLines : Option (List ℕ)) (now : Time) (db db' : Db), WithinThresholds db →
      (∀ info ∈ infos, ∀ v, info.variant = some v → v ∈ db.variants) →
      allocatePreorders infos channelSlug check checkoutLines now db = .ok db' →
      WithinThresholds db' := by
  intro h
  have hend := h [preorderLine 4, preorderLine 5] "default" true none 0 preorderDb _
    withinThresholds_preorderDb (fun info hinfo v hv => ?_) rfl
  · have hle := hend.channel _ (List.mem_singleton_self _) 3 rfl
    revert hle
    decide
  · have hline : info.variant = some { pk := 2, isPreorder := true } := by
      rcases List.mem_pair.mp hinfo with rfl | rfl <;> rfl
    obtain rfl := Option.some.inj (hline.symm.trans hv)
    exact List.mem_singleton_self _

end Stocks

end Aixinwu
