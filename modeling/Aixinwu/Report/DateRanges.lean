import Aixinwu.Donation.Models
import Aixinwu.Lib.Aggregates
import Aixinwu.Lib.Calendar
import Aixinwu.Order.Models
import Mathlib

/-!
# The reports over a period

`saleor/graphql/report/resolvers.py`: a period is cut into ranges of a day, a month or a year, and
the orders, the customers and the donations of each range are counted. The loop makes the end of a
range the start of the next, and `filter_range_field` takes both ends in. A column of times is
compared with the midnight of a date, `TIME_ZONE` is UTC.

## What the ranges are

The loop adds a delta as long as that stays before the end of the period, and then adds it once
more. So two consecutive ranges share the midnight between them, and the last range ends where the
addition leads, at the end of the period or after it. The rows at an inner boundary are counted
twice.

What remains is one case, **`reportsPartition_iff`**: the ranges are a partition of the period
exactly when the period is one delta long, which is when there is one range.

## Main definitions

* `splitDateInput`, `filterRangeField`
* `resolveOrderReports`, `resolveCustomersRegistered`, `resolveDonationReports`
* `ReportsPartition`

## Main results

* `reportsPartition_iff` — when the ranges partition the period
-/

namespace Aixinwu

namespace Report

open Calendar

/-! ### The model -/

/-- `Granularity`. -/
inductive Granularity where
  | daily
  | monthly
  | yearly
deriving DecidableEq, Repr

/-- `get_relative_delta`. -/
def getRelativeDelta : Granularity → RelativeDelta
  | .daily => ⟨0, 0, 1, by decide⟩
  | .monthly => ⟨0, 1, 0, by decide⟩
  | .yearly => ⟨1, 0, 0, by decide⟩

theorem lt_of_add_getRelativeDelta {granularity : Granularity} {x x' : Date}
    (h : x.add (getRelativeDelta granularity) = some x') : x < x' := by
  refine Date.lt_of_add ?_ h
  cases granularity <;> decide

/-- `DateRangeInput`. -/
structure DateRangeInput where
  gte : Option Date
  lte : Option Date

/-- A range with both ends. -/
structure DateRange where
  gte : Date
  lte : Date
deriving DecidableEq

/-- `_revise_date_input`: an end that is missing is taken from the rows; `none` is the
`ValidationError`. -/
def reviseDateInput {α : Type*} (qs : List α) (field : α → Datetime) (date : DateRangeInput) :
    Option DateRange := do
  let lte ← date.lte.or (qs.map fun row => (field row).date).max?
  let gte ← date.gte.or (qs.map fun row => (field row).date).min?
  return ⟨gte, lte⟩

/-- The loop of `_split_date_input`, from `x` on; `none` is the exception of an addition past the
last year. -/
def splitFrom (granularity : Granularity) (y x : Date) : Option (List DateRange) :=
  match _hadd : x.add (getRelativeDelta granularity) with
  | none => none
  | some x' =>
    if _hlt : x' < y then (splitFrom granularity y x').map (⟨x, x'⟩ :: ·)
    else some [⟨x, x'⟩]
termination_by y.number - x.number
decreasing_by
  have := Date.number_lt (lt_of_add_getRelativeDelta _hadd)
  have := Date.number_lt _hlt
  omega

/-- `_split_date_input`. -/
def splitDateInput (date : DateRange) (granularity : Granularity) : Option (List DateRange) :=
  splitFrom granularity date.lte date.gte

/-- `filter_range_field` on a column of times. -/
def filterRangeField {α : Type*} (qs : List α) (field : α → Datetime) (value : DateRangeInput) :
    List α :=
  let qs := match value.gte with
    | some gte => qs.filter fun row => decide (gte.midnight ≤ field row)
    | none => qs
  match value.lte with
  | some lte => qs.filter fun row => decide (field row ≤ lte.midnight)
  | none => qs

/-- The keyword arguments that a range stands for. -/
def DateRange.toInput (r : DateRange) : DateRangeInput := ⟨some r.gte, some r.lte⟩

/-- `Sum` of a column: the values that are there are added, and without one the sum is `none`. -/
def sumColumn {M : Type*} [Zero M] [Add M] (values : List (Option M)) : Option M :=
  match values.reduceOption with
  | [] => none
  | m :: ms => some (m :: ms).sum

/-- `BaseReport`. -/
structure BaseReport where
  collectionTotal : ℕ
  quantitiesTotal : Option ℤ
  amountTotal : Option Amount
deriving DecidableEq, Repr

/-- The columns of an order that its report reads, with the quantities of its lines. -/
structure OrderRow where
  status : OrderStatus
  createdAt : Datetime
  lineQuantities : List ℤ
  totalNetAmount : Amount

/-- The column of a user that the report of the customers reads. -/
structure UserRow where
  dateJoined : Datetime

/-- The columns of a donation that its report reads. -/
structure DonationRow where
  status : Option Donation.DonationStatus
  createdAt : Datetime
  quantity : ℕ
  priceAmount : Option Amount

/-- What the three resolvers do with the rows `qs` and the column `field`: the body of the loop
for each range. An empty list is returned if no range is found. -/
def resolveRanges {α β : Type*} (qs : List α) (field : α → Datetime) (body : List α → β)
    (date : DateRangeInput) (granularity : Granularity) : Option (List β) :=
  match reviseDateInput qs field date with
  | none => some []
  | some date =>
    (splitDateInput date granularity).map
      (List.map fun dt => body (filterRangeField qs field dt.toInput))

/-- The orders that are reported. -/
def reportedOrders (orders : List OrderRow) : List OrderRow :=
  orders.filter fun o =>
    !(o.status == .canceled || o.status == .unconfirmed || o.status == .expired)

/-- The body of the loop of `resolve_order_reports`. -/
def orderReport (qss : List OrderRow) : BaseReport where
  collectionTotal := qss.length
  quantitiesTotal := sumColumn (qss.map fun o => sumColumn (o.lineQuantities.map some))
  amountTotal := sumColumn (qss.map fun o => some o.totalNetAmount)

/-- `resolve_order_reports`. -/
def resolveOrderReports (orders : List OrderRow) (date : DateRangeInput)
    (granularity : Granularity) : Option (List BaseReport) :=
  resolveRanges (reportedOrders orders) OrderRow.createdAt orderReport date granularity

/-- `resolve_customers_registered`. -/
def resolveCustomersRegistered (users : List UserRow) (date : DateRangeInput)
    (granularity : Granularity) : Option (List ℕ) :=
  resolveRanges users UserRow.dateJoined List.length date granularity

/-- The donations that are reported. -/
def reportedDonations (donations : List DonationRow) : List DonationRow :=
  donations.filter fun d => d.status == some .completed

/-- The body of the loop of `resolve_donation_reports`. -/
def donationReport (qss : List DonationRow) : BaseReport where
  collectionTotal := qss.length
  quantitiesTotal := sumColumn (qss.map fun d => some (d.quantity : ℤ))
  amountTotal := sumColumn (qss.map fun d => d.priceAmount)

/-- `resolve_donation_reports`. -/
def resolveDonationReports (donations : List DonationRow) (date : DateRangeInput)
    (granularity : Granularity) : Option (List BaseReport) :=
  resolveRanges (reportedDonations donations) DonationRow.createdAt donationReport date granularity

/-! ### The loop -/

variable {granularity : Granularity} {x x' y : Date}

theorem splitFrom_of_none (h : x.add (getRelativeDelta granularity) = none) :
    splitFrom granularity y x = none := by
  rw [splitFrom]
  split
  · rfl
  · rename_i x₁ h₁
    rw [h] at h₁
    cases h₁

/-- One more round of the loop. -/
theorem splitFrom_of_lt (h : x.add (getRelativeDelta granularity) = some x') (hlt : x' < y) :
    splitFrom granularity y x = (splitFrom granularity y x').map (⟨x, x'⟩ :: ·) := by
  rw [splitFrom]
  split
  · rename_i h₁
    rw [h] at h₁
    cases h₁
  · rename_i x₁ h₁
    obtain rfl : x' = x₁ := Option.some.inj (h.symm.trans h₁)
    rw [dif_pos hlt]

/-- The range after the loop. -/
theorem splitFrom_of_le (h : x.add (getRelativeDelta granularity) = some x') (hle : y ≤ x') :
    splitFrom granularity y x = some [⟨x, x'⟩] := by
  rw [splitFrom]
  split
  · rename_i h₁
    rw [h] at h₁
    cases h₁
  · rename_i x₁ h₁
    obtain rfl : x' = x₁ := Option.some.inj (h.symm.trans h₁)
    rw [dif_neg hle.not_gt]

/-- What the loop returns: the first range, and what it returns from the end of it on, if that is
before the end of the period. -/
theorem of_splitFrom {ranges : List DateRange} (h : splitFrom granularity y x = some ranges) :
    ∃ x' rest, x.add (getRelativeDelta granularity) = some x' ∧ ranges = ⟨x, x'⟩ :: rest ∧
      ((x' < y ∧ splitFrom granularity y x' = some rest) ∨ (y ≤ x' ∧ rest = [])) := by
  cases hadd : x.add (getRelativeDelta granularity) with
  | none =>
    rw [splitFrom_of_none hadd] at h
    cases h
  | some x' =>
    rcases lt_or_ge x' y with hlt | hle
    · rw [splitFrom_of_lt hadd hlt] at h
      obtain ⟨rest, hrest, rfl⟩ := Option.map_eq_some_iff.mp h
      exact ⟨x', rest, rfl, rfl, Or.inl ⟨hlt, hrest⟩⟩
    · rw [splitFrom_of_le hadd hle] at h
      obtain rfl := Option.some.inj h
      exact ⟨x', [], rfl, rfl, Or.inr ⟨hle, rfl⟩⟩

/-! ### What the ranges count -/

/-- The instants of a range, as the inclusive comparisons read it. -/
def DateRange.instants (r : DateRange) : Set Datetime := Set.Icc r.gte.midnight r.lte.midnight

instance (r : DateRange) : DecidablePred (· ∈ r.instants) := fun t =>
  inferInstanceAs (Decidable (r.gte.midnight ≤ t ∧ t ≤ r.lte.midnight))

section Sums

variable {α M : Type*} [AddCommMonoid M] (field : α → Datetime) (f : α → M)

/-- A sum over the rows in a range. -/
def sumInRange (r : DateRange) (qs : List α) : M :=
  sumIf (fun row => decide (field row ∈ r.instants)) f qs

/-- A sum over the rows at the first instant of a date. -/
def sumAtMidnight (d : Date) (qs : List α) : M :=
  sumIf (fun row => decide (field row = d.midnight)) f qs

end Sums

/-! ### The partition -/

/-- The ranges are a partition of the period. -/
def Partitions (ranges : List DateRange) (period : DateRange) : Prop :=
  ranges.Pairwise (fun r r' => Disjoint r.instants r'.instants) ∧
    ⋃ r ∈ ranges, r.instants = period.instants

/-- The reports of the ranges add up to the report of the period. -/
def AddsUp (reports : List BaseReport) (whole : BaseReport) : Prop :=
  (reports.map BaseReport.collectionTotal).sum = whole.collectionTotal ∧
    sumColumn (reports.map BaseReport.quantitiesTotal) = whole.quantitiesTotal ∧
    sumColumn (reports.map BaseReport.amountTotal) = whole.amountTotal

/-- The ranges of a period partition it, and so each of the three reports adds up. -/
structure ReportsPartition (period : DateRange) (granularity : Granularity) : Prop where
  ranges : ∃ ranges, splitDateInput period granularity = some ranges ∧ Partitions ranges period
  orders : ∀ orders, ∃ reports,
    resolveOrderReports orders period.toInput granularity = some reports ∧
      AddsUp reports
        (orderReport (filterRangeField (reportedOrders orders) OrderRow.createdAt period.toInput))
  customers : ∀ users, ∃ counts,
    resolveCustomersRegistered users period.toInput granularity = some counts ∧
      counts.sum = (filterRangeField users UserRow.dateJoined period.toInput).length
  donations : ∀ donations, ∃ reports,
    resolveDonationReports donations period.toInput granularity = some reports ∧
      AddsUp reports
        (donationReport
          (filterRangeField (reportedDonations donations) DonationRow.createdAt period.toInput))

theorem sumColumn_singleton {M : Type*} [AddMonoid M] : ∀ value : Option M,
    sumColumn [value] = value
  | none => rfl
  | some m => congrArg some (add_zero m)

theorem addsUp_singleton (report : BaseReport) : AddsUp [report] report :=
  ⟨add_zero _, sumColumn_singleton _, sumColumn_singleton _⟩

theorem midnight_mem_instants {d : Date} {r : DateRange} :
    d.midnight ∈ r.instants ↔ r.gte ≤ d ∧ d ≤ r.lte := by
  rw [DateRange.instants, Set.mem_Icc, midnight_le_midnight, midnight_le_midnight]

/-- A period that is both given is not revised. -/
theorem resolveRanges_toInput {α β : Type*} (qs : List α) (field : α → Datetime)
    (body : List α → β) (period : DateRange) (granularity : Granularity) :
    resolveRanges qs field body period.toInput granularity =
      (splitDateInput period granularity).map
        (List.map fun dt => body (filterRangeField qs field dt.toInput)) := rfl

/-- A period of one delta is its own and only range. -/
theorem splitDateInput_of_add {period : DateRange}
    (h : period.gte.add (getRelativeDelta granularity) = some period.lte) :
    splitDateInput period granularity = some [period] :=
  splitFrom_of_le h le_rfl

/-- Two ranges share the midnight between them. -/
theorem not_partitions_of_lt {period : DateRange} {ranges : List DateRange}
    (h : period.gte.add (getRelativeDelta granularity) = some x') (hlt : x' < period.lte)
    (hranges : splitDateInput period granularity = some ranges) :
    ¬ Partitions ranges period := by
  rintro ⟨hdisjoint, -⟩
  rw [splitDateInput, splitFrom_of_lt h hlt] at hranges
  obtain ⟨rest, hrest, rfl⟩ := Option.map_eq_some_iff.mp hranges
  obtain ⟨x'', rest', hadd, rfl, -⟩ := of_splitFrom hrest
  have hfirst : x'.midnight ∈ DateRange.instants ⟨period.gte, x'⟩ :=
    midnight_mem_instants.mpr ⟨(lt_of_add_getRelativeDelta h).le, le_rfl⟩
  have hsecond : x'.midnight ∈ DateRange.instants ⟨x', x''⟩ :=
    midnight_mem_instants.mpr ⟨le_rfl, (lt_of_add_getRelativeDelta hadd).le⟩
  have hne := (List.pairwise_cons.mp hdisjoint).1 _ List.mem_cons_self
  exact Set.disjoint_left.mp hne hfirst hsecond

/-- The last range goes past the end of the period. -/
theorem not_partitions_of_gt {period : DateRange} {ranges : List DateRange}
    (h : period.gte.add (getRelativeDelta granularity) = some x') (hlt : period.lte < x')
    (hranges : splitDateInput period granularity = some ranges) :
    ¬ Partitions ranges period := by
  rintro ⟨-, hunion⟩
  rw [splitDateInput, splitFrom_of_le h hlt.le] at hranges
  obtain rfl := Option.some.inj hranges
  have hmem : x'.midnight ∈ ⋃ r ∈ [DateRange.mk period.gte x'], r.instants := by
    refine Set.mem_biUnion List.mem_cons_self ?_
    exact midnight_mem_instants.mpr ⟨(lt_of_add_getRelativeDelta h).le, le_rfl⟩
  rw [hunion, midnight_mem_instants] at hmem
  exact hmem.2.not_gt hlt

/-- **The ranges partition the period exactly when it is one delta long.** -/
theorem reportsPartition_iff (period : DateRange) (granularity : Granularity) :
    ReportsPartition period granularity ↔
      period.gte.add (getRelativeDelta granularity) = some period.lte := by
  constructor
  · rintro ⟨⟨ranges, hranges, hpartitions⟩, -⟩
    obtain ⟨x', rest, hadd, -⟩ := of_splitFrom hranges
    rcases lt_trichotomy x' period.lte with hlt | rfl | hgt
    · exact absurd hpartitions (not_partitions_of_lt hadd hlt hranges)
    · exact hadd
    · exact absurd hpartitions (not_partitions_of_gt hadd hgt hranges)
  · intro h
    have hsplit := splitDateInput_of_add h
    refine ⟨⟨[period], hsplit, List.pairwise_singleton _ _, ?_⟩, ?_, ?_, ?_⟩
    · simp only [List.mem_singleton, Set.iUnion_iUnion_eq_left]
    · intro orders
      rw [resolveOrderReports, resolveRanges_toInput, hsplit]
      exact ⟨_, rfl, addsUp_singleton _⟩
    · intro users
      rw [resolveCustomersRegistered, resolveRanges_toInput, hsplit]
      exact ⟨_, rfl, List.sum_singleton⟩
    · intro donations
      rw [resolveDonationReports, resolveRanges_toInput, hsplit]
      exact ⟨_, rfl, addsUp_singleton _⟩

/-- Two days, day by day: a customer who joined at the midnight between them is in both ranges. -/
theorem not_reportsPartition_twoDays :
    let first : Date := ⟨2024, 1, 1, by decide⟩
    let second : Date := ⟨2024, 1, 2, by decide⟩
    let third : Date := ⟨2024, 1, 3, by decide⟩
    first ≤ third ∧ ¬ ReportsPartition ⟨first, third⟩ .daily ∧
      resolveCustomersRegistered [⟨second.midnight⟩] (DateRange.toInput ⟨first, third⟩) .daily =
        some [1, 1] := by
  intro first second third
  have hfirst : first.add (getRelativeDelta .daily) = some second := by decide
  have hsecond : second.add (getRelativeDelta .daily) = some third := by decide
  have hlt : second < third := by decide
  have hsplit : splitDateInput ⟨first, third⟩ .daily = some [⟨first, second⟩, ⟨second, third⟩] := by
    rw [splitDateInput, splitFrom_of_lt hfirst hlt, splitFrom_of_le hsecond le_rfl]
    rfl
  refine ⟨by decide, ?_, ?_⟩
  · rintro ⟨⟨ranges, hranges, hpartitions⟩, -⟩
    exact not_partitions_of_lt hfirst hlt hranges hpartitions
  · rw [resolveCustomersRegistered, resolveRanges_toInput, hsplit]
    decide

end Report

end Aixinwu
