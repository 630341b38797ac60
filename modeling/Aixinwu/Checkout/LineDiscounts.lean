import Aixinwu.Checkout.GiftCards
import Aixinwu.Lib.Shares
import Mathlib

/-!
# The discount of an order, line by line

A voucher for the entire order is spread over the lines of the checkout:
`apply_checkout_discount_on_checkout_line` is called for every line with the line's base total, and
gives it its share of the discount, the last line what the others leave. No call sees what the
others returned, each works out the shares of all lines anew.

Over exact decimals the last line gets its share like any other, nothing is cut off at zero, and so
the lines cost what they cost before minus the discount. Only, the shares are divided by the sum of
the base totals, and nothing asks whether that is zero: two lines that are free make every call
divide by zero. A single line takes another branch and does not.

## Main definitions

* `discountedLineTotals` — the calls for all lines
* `DistributesExactly`

## Main results

* `applyCheckoutDiscountOnCheckoutLine_eq` — one call
* `distributesExactly_iff`
-/

namespace Aixinwu

namespace Checkout

open Shares

variable (s : PriceSettings)

/-- The calls for all lines, each with the base total of the line. -/
def discountedLineTotals (c : PricedCheckout) : Option (List ℚ) :=
  c.lines.mapM fun l =>
    (calculateBaseLineTotalPrice s l).bind (applyCheckoutDiscountOnCheckoutLine s c l)

/-- No call divides by zero, a line costs between nothing and its base total, and together the
lines cost the base totals without the discount. -/
def DistributesExactly (c : PricedCheckout) (totals : List ℚ) : Prop :=
  ∃ prices, discountedLineTotals s c = some prices ∧
    List.Forall₂ (fun price total => 0 ≤ price ∧ price ≤ total) prices totals ∧
    prices.sum = totals.sum - c.discountAmount

/-- A checkout whose voucher is for the entire order, and the base totals of its lines. -/
structure EntireOrder (c : PricedCheckout) (totals : List ℚ) : Prop where
  voucher : ∃ v, c.voucher = some v ∧ v.type = .entireOrder ∧ v.applyOncePerOrder = false
  nonempty : c.lines ≠ []
  base : c.lines.mapM (calculateBaseLineTotalPrice s) = some totals
  nonneg : ∀ total ∈ totals, 0 ≤ total
  discount_nonneg : 0 ≤ c.discountAmount
  discount_le : c.discountAmount ≤ totals.sum

variable {s}

/-- The base total of a line that has one. -/
def baseTotal (s : PriceSettings) (l : CheckoutLineInfo) : ℚ :=
  (calculateBaseLineTotalPrice s l).getD 0

theorem eq_some_baseTotal {ls : List CheckoutLineInfo} {totals : List ℚ}
    (h : ls.mapM (calculateBaseLineTotalPrice s) = some totals) :
    totals = ls.map (baseTotal s) ∧
      ∀ l ∈ ls, calculateBaseLineTotalPrice s l = some (baseTotal s l) := by
  have hall := forall₂_of_mapM h
  clear h
  induction hall with
  | nil => exact ⟨rfl, fun l hl => by cases hl⟩
  | @cons l total ls totals hl _ ih =>
    have hbase : baseTotal s l = total := by rw [baseTotal, hl, Option.getD_some]
    refine ⟨by rw [List.map_cons, hbase, ← ih.1], fun m hm => ?_⟩
    rcases List.mem_cons.mp hm with rfl | hm
    · rw [hbase, hl]
    · exact ih.2 m hm

/-- The other lines and the line itself. -/
theorem sum_others_add {ls : List CheckoutLineInfo} (hids : (ls.map (·.id)).Nodup)
    {l : CheckoutLineInfo} (hl : l ∈ ls) (f : CheckoutLineInfo → ℚ) :
    ((ls.filter (·.id ≠ l.id)).map f).sum + f l = (ls.map f).sum := by
  have hline : sumIf (fun m => decide (m.id = l.id)) f ls = f l := by
    refine sumIf_eq_single hids.of_map hl fun m hm => ?_
    rw [decide_eq_true_eq]
    exact ⟨fun h => List.inj_on_of_nodup_map hids hm hl h, fun h => h ▸ rfl⟩
  have hsplit : sumIf (fun m => decide (m.id ≠ l.id) || decide (m.id = l.id)) f ls =
      sumIf (fun m => decide (m.id ≠ l.id)) f ls + sumIf (fun m => decide (m.id = l.id)) f ls :=
    sumIf_or fun m _ hne heq => of_decide_eq_true hne (of_decide_eq_true heq)
  have hall : sumIf (fun m => decide (m.id ≠ l.id) || decide (m.id = l.id)) f ls =
      (ls.map f).sum := by
    refine sumIf_of_forall fun m _ => ?_
    by_cases h : m.id = l.id <;> simp [h]
  rw [← hall, hsplit, hline]
  rfl

/-- The base totals of the other lines. -/
theorem mapM_others {c : PricedCheckout}
    (h : ∀ l ∈ c.lines, calculateBaseLineTotalPrice s l = some (baseTotal s l))
    (l : CheckoutLineInfo) :
    (c.lines.filter (·.id ≠ l.id)).mapM (calculateBaseLineTotalPrice s) =
      some ((c.lines.filter (·.id ≠ l.id)).map (baseTotal s)) :=
  mapM_eq_some_map fun m hm => h m (List.mem_of_mem_filter hm)

/-- One call of a checkout with several lines: every line gets its share, the last one too. -/
theorem applyCheckoutDiscountOnCheckoutLine_eq {c : PricedCheckout} {totals : List ℚ}
    (h : EntireOrder s c totals) (hlength : c.lines.length ≠ 1) {l : CheckoutLineInfo}
    (hl : l ∈ c.lines) :
    applyCheckoutDiscountOnCheckoutLine s c l (baseTotal s l) =
      if totals.sum = 0 then none
      else some (max (baseTotal s l - share totals.sum c.discountAmount (baseTotal s l)) 0) := by
  obtain ⟨v, hv, htype, honce⟩ := h.voucher
  obtain ⟨htotals, hbase⟩ := eq_some_baseTotal h.base
  have hothers := mapM_others hbase l
  have hsum : ((c.lines.filter (·.id ≠ l.id)).map (baseTotal s)).sum + baseTotal s l =
      totals.sum := by
    rw [htotals]
    exact sum_others_add c.lines_unique hl (baseTotal s)
  rw [applyCheckoutDiscountOnCheckoutLine, hv]
  dsimp only
  rw [honce, htype, if_neg (by decide), if_neg hlength, hothers, Option.bind_some,
    hsum]
  by_cases hzero : totals.sum = 0
  · rw [if_pos hzero, if_pos hzero]
  · rw [if_neg hzero, if_neg hzero]
    have hlast : calculateDiscountForLastElement
        ((c.lines.filter (·.id ≠ l.id)).map (baseTotal s)) totals.sum c.discountAmount =
          share totals.sum c.discountAmount (baseTotal s l) :=
      remainder_eq_share hsum hzero
    split
    · rw [hlast]
    · rfl

/-- A single line is discounted as a whole. -/
theorem discountedLineTotals_of_length_eq_one {c : PricedCheckout} {totals : List ℚ}
    (h : EntireOrder s c totals) (hlength : c.lines.length = 1) :
    discountedLineTotals s c = some [max (totals.sum - c.discountAmount) 0] := by
  obtain ⟨v, hv, htype, honce⟩ := h.voucher
  obtain ⟨htotals, hbase⟩ := eq_some_baseTotal h.base
  obtain ⟨l, hl⟩ := List.length_eq_one_iff.mp hlength
  have hcall : applyCheckoutDiscountOnCheckoutLine s c l (baseTotal s l) =
      some (max (baseTotal s l - c.discountAmount) 0) := by
    rw [applyCheckoutDiscountOnCheckoutLine, hv]
    dsimp only
    rw [honce, htype, if_neg (by decide), if_pos hlength]
  have hsum : totals.sum = baseTotal s l := by
    rw [htotals, hl, List.map_singleton, List.sum_singleton]
  rw [discountedLineTotals, hl, List.mapM_cons, hbase l (hl ▸ List.mem_singleton_self l),
    Option.bind_some, hcall, hsum]
  rfl

/-- Several lines are discounted each by its share. -/
theorem discountedLineTotals_of_sum_ne_zero {c : PricedCheckout} {totals : List ℚ}
    (h : EntireOrder s c totals) (hlength : c.lines.length ≠ 1) (hsum : totals.sum ≠ 0) :
    discountedLineTotals s c =
      some (totals.map fun total => total - share totals.sum c.discountAmount total) := by
  obtain ⟨htotals, hbase⟩ := eq_some_baseTotal h.base
  have hpos : 0 < totals.sum := lt_of_le_of_ne (List.sum_nonneg h.nonneg) hsum.symm
  have hcalls : ∀ l ∈ c.lines,
      ((calculateBaseLineTotalPrice s l).bind (applyCheckoutDiscountOnCheckoutLine s c l)) =
        some (baseTotal s l - share totals.sum c.discountAmount (baseTotal s l)) := by
    intro l hl
    have hmem : baseTotal s l ∈ totals := by
      rw [htotals]
      exact List.mem_map_of_mem hl
    have hle := share_le (h.nonneg _ hmem) h.discount_le hpos
    rw [hbase l hl, Option.bind_some, applyCheckoutDiscountOnCheckoutLine_eq h hlength hl,
      if_neg hsum, max_eq_left (sub_nonneg.mpr hle)]
  have hmap : ∀ f : ℚ → ℚ, totals.map f = c.lines.map (f ∘ baseTotal s) := by
    intro f
    rw [htotals, List.map_map]
  rw [discountedLineTotals, mapM_eq_some_map hcalls, hmap]
  rfl

/-- Several lines that are all free: the first call divides by zero. -/
theorem discountedLineTotals_of_sum_eq_zero {c : PricedCheckout} {totals : List ℚ}
    (h : EntireOrder s c totals) (hlength : c.lines.length ≠ 1) (hsum : totals.sum = 0) :
    discountedLineTotals s c = none := by
  obtain ⟨-, hbase⟩ := eq_some_baseTotal h.base
  obtain ⟨l, ls, hls⟩ := List.exists_cons_of_ne_nil h.nonempty
  have hl : l ∈ c.lines := hls ▸ List.mem_cons_self
  rw [discountedLineTotals, hls, List.mapM_cons, hbase l hl, Option.bind_some,
    applyCheckoutDiscountOnCheckoutLine_eq h hlength hl, if_pos hsum]
  rfl

/-- Base totals that are not negative add up to zero only if all of them are zero. -/
theorem sum_eq_zero_iff_of_nonneg {totals : List ℚ} (h : ∀ total ∈ totals, 0 ≤ total) :
    totals.sum = 0 ↔ ∀ total ∈ totals, total = 0 := by
  constructor
  · intro hsum total htotal
    exact List.all_zero_of_le_zero_le_of_sum_eq_zero h hsum htotal
  · exact List.sum_eq_zero

/-- **The lines pay the discount exactly** unless there are several of them and all are free, and
then the calls divide by zero. -/
theorem distributesExactly_iff {c : PricedCheckout} {totals : List ℚ}
    (h : EntireOrder s c totals) :
    DistributesExactly s c totals ↔ c.lines.length = 1 ∨ ∃ total ∈ totals, total ≠ 0 := by
  by_cases hlength : c.lines.length = 1
  · have hone : totals.length = 1 := by
      rw [(eq_some_baseTotal h.base).1, List.length_map, hlength]
    obtain ⟨total, rfl⟩ := List.length_eq_one_iff.mp hone
    have hnonneg : 0 ≤ [total].sum - c.discountAmount := sub_nonneg.mpr h.discount_le
    refine iff_of_true ⟨_, discountedLineTotals_of_length_eq_one h hlength, ?_, ?_⟩ (Or.inl hlength)
    · rw [max_eq_left hnonneg, List.sum_singleton, List.forall₂_cons]
      rw [List.sum_singleton] at hnonneg
      exact ⟨⟨hnonneg, sub_le_self total h.discount_nonneg⟩, List.Forall₂.nil⟩
    · rw [max_eq_left hnonneg, List.sum_singleton]
  · have hexists : (∃ total ∈ totals, total ≠ 0) ↔ totals.sum ≠ 0 := by
      rw [Ne, sum_eq_zero_iff_of_nonneg h.nonneg]
      push Not
      rfl
    rw [or_iff_right hlength, hexists]
    by_cases hsum : totals.sum = 0
    · refine iff_of_false ?_ (not_not_intro hsum)
      rintro ⟨prices, hprices, -⟩
      rw [discountedLineTotals_of_sum_eq_zero h hlength hsum] at hprices
      cases hprices
    · refine iff_of_true ⟨_, discountedLineTotals_of_sum_ne_zero h hlength hsum, ?_,
        sum_sub_share hsum c.discountAmount⟩ hsum
      have hpos : 0 < totals.sum := lt_of_le_of_ne (List.sum_nonneg h.nonneg) (Ne.symm hsum)
      rw [List.forall₂_map_left_iff, List.forall₂_same]
      intro total htotal
      have hnonneg := h.nonneg total htotal
      exact ⟨sub_nonneg.mpr (share_le hnonneg h.discount_le hpos),
        sub_le_self total (share_nonneg hnonneg h.discount_nonneg hpos.le)⟩

/-- Two lines of ten and of twenty, and six off. -/
def twoPricedLines : PricedCheckout where
  voucher := some { pk := 1, startDate := 0 }
  discountAmount := 6
  priceExpiration := 0
  lines :=
    [{ id := 1, quantity := 1, quantity_pos := Nat.one_pos, basePrice := 10 },
      { id := 2, quantity := 2, quantity_pos := Nat.two_pos, basePrice := 10 }]
  lines_unique := by decide

theorem distributesExactly_twoPricedLines :
    DistributesExactly plainPrices twoPricedLines [10, 20] := by
  have h : EntireOrder plainPrices twoPricedLines [10, 20] := by
    refine ⟨⟨_, rfl, rfl, rfl⟩, by decide, by decide +kernel, ?_, by decide +kernel,
      by decide +kernel⟩
    intro total htotal
    simp only [List.mem_cons, List.not_mem_nil, or_false] at htotal
    rcases htotal with rfl | rfl <;> norm_num
  exact (distributesExactly_iff h).mpr (Or.inr ⟨10, List.mem_cons_self, by norm_num⟩)

/-- Two lines that are free, and nothing off. -/
def twoFreeLines : PricedCheckout where
  voucher := some { pk := 1, startDate := 0 }
  priceExpiration := 0
  lines :=
    [{ id := 1, quantity := 1, quantity_pos := Nat.one_pos, basePrice := 0 },
      { id := 2, quantity := 1, quantity_pos := Nat.one_pos, basePrice := 0 }]
  lines_unique := by decide

/-- The first call divides zero by zero. -/
theorem not_distributesExactly_twoFreeLines :
    EntireOrder plainPrices twoFreeLines [0, 0] ∧
      ¬ DistributesExactly plainPrices twoFreeLines [0, 0] ∧
      discountedLineTotals plainPrices twoFreeLines = none := by
  have hnone : discountedLineTotals plainPrices twoFreeLines = none := by decide +kernel
  refine ⟨⟨⟨_, rfl, rfl, rfl⟩, by decide, by decide +kernel, ?_, le_rfl, by decide +kernel⟩, ?_,
    hnone⟩
  · intro total htotal
    simp only [List.mem_cons, List.not_mem_nil, or_false, or_self] at htotal
    exact htotal.ge
  · rintro ⟨prices, hprices, -⟩
    rw [hnone] at hprices
    cases hprices

end Checkout

end Aixinwu
