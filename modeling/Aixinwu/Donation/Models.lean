import Aixinwu.Account.Models
import Aixinwu.Core.Mutations
import Mathlib.Tactic.Linarith

/-!
# Donations

The `Donation` row of `saleor/donation/models.py`, and the `full_clean` that stands between an
instance in memory and the row. A row carries the bounds of its columns, so a row that the
database would refuse cannot be built; an instance in memory may be anything, and `fullClean`
either makes a row of it or says which fields are wrong.

A price in memory is a decimal as it was typed, with its number of places: the validator counts
places, trailing zeros included, so `1.0000` is refused although it is a whole number.

Of the columns only those some modelled function reads or writes are kept; the running number and
the timestamps are left out.

## Main definitions

* `Decimal` — a decimal as typed
* `DonationInstance`, `Donation`
* `DonationInstance.fullClean`

## Main results

* `fullClean_toInstance` — a stored row is clean
-/

namespace Aixinwu

namespace Donation

/-- `DonationStatus`. -/
inductive DonationStatus where
  | unreviewed
  | completed
  | rejected
deriving DecidableEq, Repr

/-- A decimal as typed: `unscaled` divided by ten to the `places`. -/
structure Decimal where
  unscaled : ℤ
  places : ℕ
deriving DecidableEq, Repr

/-- The value in thousandths, of a decimal with at most three places. -/
def Decimal.thousandths (d : Decimal) : Amount := d.unscaled * 10 ^ (3 - d.places)

/-- The columns of `donation.models.Donation` on an instance in memory. -/
structure DonationInstance where
  pk : ℕ
  donator : Option String
  barcode : Option String
  title : Option String
  description : Option String
  currency : Option String
  priceAmount : Option Decimal
  status : Option DonationStatus
  quantity : ℤ
deriving DecidableEq, Repr

end Donation

open Donation

/-- A row of `donation.models.Donation`, with the bounds of its columns. -/
structure Donation where
  pk : ℕ
  donator : Option String
  barcode : Option String
  title : Option String
  description : Option String
  currency : Option String
  priceAmount : Option Amount
  status : Option DonationStatus
  quantity : ℕ
  donator_le : ∀ s ∈ donator, s.length ≤ 128 := by decide
  barcode_le : ∀ s ∈ barcode, s.length ≤ 256 := by decide
  title_le : ∀ s ∈ title, s.length ≤ 128 := by decide
  currency_le : ∀ s ∈ currency, s.length ≤ 3 := by decide
  priceAmount_lt : ∀ p ∈ priceAmount, p.natAbs < 10 ^ 12 := by decide
  quantity_le : quantity ≤ 2147483647 := by decide
deriving DecidableEq

instance : HasPk Donation ℕ := ⟨Donation.pk⟩

@[simp] theorem pk_donation (d : Donation) : HasPk.pk d = d.pk := rfl

namespace Donation

/-- Put another status on a row. -/
def setStatus (d : Donation) (status : DonationStatus) : Donation := { d with status := some status }

@[simp] theorem setStatus_pk (d : Donation) (s : DonationStatus) : (d.setStatus s).pk = d.pk := rfl

@[simp] theorem setStatus_status (d : Donation) (s : DonationStatus) :
    (d.setStatus s).status = some s := rfl

@[simp] theorem setStatus_donator (d : Donation) (s : DonationStatus) :
    (d.setStatus s).donator = d.donator := rfl

@[simp] theorem setStatus_priceAmount (d : Donation) (s : DonationStatus) :
    (d.setStatus s).priceAmount = d.priceAmount := rfl

/-- The instance that reading a row gives. -/
def toInstance (d : Donation) : DonationInstance where
  pk := d.pk
  donator := d.donator
  barcode := d.barcode
  title := d.title
  description := d.description
  currency := d.currency
  priceAmount := d.priceAmount.map (⟨·, 3⟩)
  status := d.status
  quantity := d.quantity

/-! ### Field validators -/

/-- `MaxLengthValidator` on a nullable text column. -/
def charFieldErrors (field : String) (max : ℕ) (v : Option String) : List ValidationError :=
  match v with
  | none => []
  | some s =>
    if s.length ≤ max then []
    else
      [⟨field, "Ensure this value has at most " ++ toString max ++ " characters (it has "
        ++ toString s.length ++ ").", .invalid⟩]

@[simp] theorem charFieldErrors_eq_nil {field : String} {max : ℕ} {v : Option String} :
    charFieldErrors field max v = [] ↔ ∀ s ∈ v, s.length ≤ max := by
  cases v with
  | none => simp [charFieldErrors]
  | some s => by_cases h : s.length ≤ max <;> simp [charFieldErrors, h]

/-- `DecimalValidator(12, 3)`: the first of its three checks that fails. -/
def decimalFieldErrors (field : String) (v : Option Decimal) : List ValidationError :=
  match v with
  | none => []
  | some d =>
    if 10 ^ 12 ≤ d.unscaled.natAbs ∨ 12 < d.places then
      [⟨field, "Ensure that there are no more than 12 digits in total.", .invalid⟩]
    else if 3 < d.places then
      [⟨field, "Ensure that there are no more than 3 decimal places.", .invalid⟩]
    else if 10 ^ (9 + d.places) ≤ d.unscaled.natAbs then
      [⟨field, "Ensure that there are no more than 9 digits before the decimal point.", .invalid⟩]
    else []

theorem decimalFieldErrors_eq_nil {field : String} {v : Option Decimal} :
    decimalFieldErrors field v = []
      ↔ ∀ d ∈ v, d.places ≤ 3 ∧ d.unscaled.natAbs < 10 ^ (9 + d.places) := by
  cases v with
  | none => simp [decimalFieldErrors]
  | some d =>
    simp only [decimalFieldErrors, Option.mem_some_iff, forall_eq']
    have hpow : d.places ≤ 3 → (10 : ℕ) ^ (9 + d.places) ≤ 10 ^ 12 := fun h =>
      Nat.pow_le_pow_right (by decide) (by omega)
    by_cases h₁ : 3 < d.places
    · simp only [h₁, if_true]
      constructor
      · intro h; split at h <;> simp at h
      · rintro ⟨h, _⟩; omega
    · have hle : d.places ≤ 3 := by omega
      have h₁₂ : ¬ 12 < d.places := by omega
      simp only [h₁, h₁₂, or_false, if_false, hle, true_and]
      have := hpow hle
      split
      · simp; omega
      · split <;> simp <;> omega

/-- `PositiveIntegerField`. -/
def positiveIntegerFieldErrors (field : String) (n : ℤ) : List ValidationError :=
  if n < 0 then [⟨field, "Ensure this value is greater than or equal to 0.", .invalid⟩]
  else if 2147483647 < n then
    [⟨field, "Ensure this value is less than or equal to 2147483647.", .invalid⟩]
  else []

theorem positiveIntegerFieldErrors_eq_nil {field : String} {n : ℤ} :
    positiveIntegerFieldErrors field n = [] ↔ 0 ≤ n ∧ n ≤ 2147483647 := by
  rw [positiveIntegerFieldErrors]
  split
  · simp; omega
  · split <;> simp <;> omega

/-! ### `full_clean` -/

/-- What `full_clean` finds wrong with an instance. -/
def DonationInstance.errors (i : DonationInstance) : List ValidationError :=
  charFieldErrors "donator" 128 i.donator ++ charFieldErrors "barcode" 256 i.barcode
    ++ charFieldErrors "title" 128 i.title ++ charFieldErrors "currency" 3 i.currency
    ++ decimalFieldErrors "priceAmount" i.priceAmount
    ++ positiveIntegerFieldErrors "quantity" i.quantity

theorem DonationInstance.errors_eq_nil {i : DonationInstance} :
    i.errors = [] ↔ (∀ s ∈ i.donator, s.length ≤ 128) ∧ (∀ s ∈ i.barcode, s.length ≤ 256) ∧
      (∀ s ∈ i.title, s.length ≤ 128) ∧ (∀ s ∈ i.currency, s.length ≤ 3) ∧
      (∀ d ∈ i.priceAmount, d.places ≤ 3 ∧ d.unscaled.natAbs < 10 ^ (9 + d.places)) ∧
      0 ≤ i.quantity ∧ i.quantity ≤ 2147483647 := by
  simp only [errors, List.append_eq_nil_iff, charFieldErrors_eq_nil, decimalFieldErrors_eq_nil,
    positiveIntegerFieldErrors_eq_nil, and_assoc]

theorem natAbs_thousandths_lt {d : Decimal} (hplaces : d.places ≤ 3)
    (hlt : d.unscaled.natAbs < 10 ^ (9 + d.places)) : d.thousandths.natAbs < 10 ^ 12 := by
  have hpow : (10 : ℕ) ^ (9 + d.places) * 10 ^ (3 - d.places) = 10 ^ 12 := by
    rw [← pow_add, show 9 + d.places + (3 - d.places) = 12 by omega]
  have hten : ((10 : ℤ) ^ (3 - d.places)).natAbs = 10 ^ (3 - d.places) := by
    rw [Int.natAbs_pow]; rfl
  rw [Decimal.thousandths, Int.natAbs_mul, hten, ← hpow]
  exact Nat.mul_lt_mul_of_pos_right hlt (by positivity)

/-- `full_clean` and the row it lets through. -/
def DonationInstance.fullClean (i : DonationInstance) : Except (List ValidationError) Donation :=
  if h : i.errors = [] then
    .ok
      { pk := i.pk
        donator := i.donator
        barcode := i.barcode
        title := i.title
        description := i.description
        currency := i.currency
        priceAmount := i.priceAmount.map Decimal.thousandths
        status := i.status
        quantity := i.quantity.toNat
        donator_le := (errors_eq_nil.mp h).1
        barcode_le := (errors_eq_nil.mp h).2.1
        title_le := (errors_eq_nil.mp h).2.2.1
        currency_le := (errors_eq_nil.mp h).2.2.2.1
        priceAmount_lt := by
          intro p hp
          obtain ⟨d, hd, rfl⟩ := Option.mem_map.mp hp
          obtain ⟨hplaces, hlt⟩ := (errors_eq_nil.mp h).2.2.2.2.1 d hd
          exact natAbs_thousandths_lt hplaces hlt
        quantity_le := by
          have := (errors_eq_nil.mp h).2.2.2.2.2
          omega }
  else .error i.errors

/-- An instance that `full_clean` lets through is stored as it is. -/
theorem DonationInstance.fullClean_eq_ok {i : DonationInstance} {d : Donation}
    (h : i.fullClean = .ok d) :
    d.pk = i.pk ∧ d.donator = i.donator ∧ d.barcode = i.barcode ∧ d.status = i.status ∧
      d.priceAmount = i.priceAmount.map Decimal.thousandths := by
  rw [fullClean] at h
  split at h
  · cases h
    exact ⟨rfl, rfl, rfl, rfl, rfl⟩
  · cases h

/-- A row just read passes `full_clean` unchanged. -/
theorem fullClean_toInstance (d : Donation) : d.toInstance.fullClean = .ok d := by
  have hprice : ∀ e ∈ d.toInstance.priceAmount,
      e.places ≤ 3 ∧ e.unscaled.natAbs < 10 ^ (9 + e.places) := by
    intro e he
    obtain ⟨p, hp, rfl⟩ := Option.mem_map.mp he
    exact ⟨le_rfl, d.priceAmount_lt p hp⟩
  have hclean : d.toInstance.errors = [] :=
    DonationInstance.errors_eq_nil.mpr ⟨d.donator_le, d.barcode_le, d.title_le, d.currency_le,
      hprice, Int.natCast_nonneg _, Int.ofNat_le.mpr d.quantity_le⟩
  have hamount : (d.priceAmount.map fun p => (⟨p, 3⟩ : Decimal)).map Decimal.thousandths
      = d.priceAmount := by
    cases d.priceAmount <;> simp [Decimal.thousandths]
  rw [DonationInstance.fullClean, dif_pos hclean]
  cases d
  simp only [toInstance, Int.toNat_natCast] at hamount ⊢
  simp only [hamount]

end Donation

end Aixinwu
