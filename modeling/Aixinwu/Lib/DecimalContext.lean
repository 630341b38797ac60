import Aixinwu.Lib.Decimals
import Mathlib.Data.Int.Log

/-!
# Decimals in a context

Decimal arithmetic of a default context: results are rounded to 28 significant digits, ties to even,
and to no more places than the smallest exponent allows; a result that is too large, one that is not
defined and a signalling number are errors. Besides the finite numbers there are two infinities and
what is no number, quietly or signalling. Of a finite number only the value is kept, not how many
places it was written with.

Numbers with a fixed number of places stay on their grid when they are added, even where the sum has
too many digits and is rounded. So quantizing a sum of quantized numbers changes nothing, unless it
is an error (`quantize_of_onGrid`).

## Main definitions

* `Decimal`, `Signal`
* `Decimal.add`, `Decimal.divInt`, `Decimal.quantize`, `Decimal.sumFrom`
* `OnGrid` — at most so many places, or no number

## Main results

* `hasPlaces_roundToUnit`
* `onGrid_quantize`, `onGrid_add`
* `quantize_of_onGrid`
-/

namespace Aixinwu

namespace Decimals

/-- A decimal, by its value. -/
inductive Decimal where
  | finite (q : ℚ)
  | infinity (negative : Bool)
  | nan
  | snan
deriving DecidableEq, Repr

/-- The signals that are errors. -/
inductive Signal where
  | invalidOperation
  | divisionByZero
  | overflow
deriving DecidableEq, Repr

/-- The nearest multiple of a unit, ties to the even multiple. -/
def roundToUnit (unit q : ℚ) : ℚ := roundHalfEven (q / unit) * unit

/-- The exponent of the last place that is kept: the 28th digit, or the smallest exponent. -/
def lastPlace (q : ℚ) : ℤ := max (Int.log 10 |q| - 27) (-1000026)

/-- A result, rounded. -/
def inContext (q : ℚ) : Except Signal Decimal :=
  let rounded := roundToUnit (10 ^ lastPlace q) q
  if 1000000 ≤ Int.log 10 |rounded| then .error .overflow else .ok (.finite rounded)

namespace Decimal

/-- `x + y`. -/
def add : Decimal → Decimal → Except Signal Decimal
  | .snan, _ => .error .invalidOperation
  | _, .snan => .error .invalidOperation
  | .nan, _ => .ok .nan
  | _, .nan => .ok .nan
  | .infinity a, .infinity b => if a = b then .ok (.infinity a) else .error .invalidOperation
  | .infinity a, .finite _ => .ok (.infinity a)
  | .finite _, .infinity b => .ok (.infinity b)
  | .finite q, .finite r => inContext (q + r)

/-- `x / n`, of an integer. -/
def divInt : Decimal → ℤ → Except Signal Decimal
  | .snan, _ => .error .invalidOperation
  | .nan, _ => .ok .nan
  | .infinity a, n => .ok (.infinity (if n < 0 then !a else a))
  | .finite q, n =>
    if n = 0 then .error (if q = 0 then .invalidOperation else .divisionByZero)
    else inContext (q / n)

/-- `x.quantize(Decimal(10) ** -places)`. -/
def quantize : Decimal → ℕ → Except Signal Decimal
  | .snan, _ => .error .invalidOperation
  | .nan, _ => .ok .nan
  | .infinity _, _ => .error .invalidOperation
  | .finite q, places =>
    let rounded := quantizeTo places q
    if 10 ^ 28 ≤ |rounded| * 10 ^ places then .error .invalidOperation else .ok (.finite rounded)

/-- `sum(xs, x)`. -/
def sumFrom : Decimal → List Decimal → Except Signal Decimal
  | x, [] => .ok x
  | x, y :: ys => (add x y).bind fun z => sumFrom z ys

/-- With at most so many places, or no number. -/
def OnGrid (places : ℕ) : Decimal → Prop
  | .finite q => HasPlaces places q
  | .nan => True
  | _ => False

end Decimal

open Decimal

variable {places : ℕ} {q : ℚ} {x y z : Decimal}

/-- **Rounding keeps to the grid**: it leaves a number alone that is a multiple of the unit, and a
larger unit is on the grid itself. -/
theorem hasPlaces_roundToUnit (h : HasPlaces places q) (k : ℤ) :
    HasPlaces places (roundToUnit (10 ^ k) q) := by
  obtain ⟨n, rfl⟩ := h
  have hten : (10 : ℚ) ≠ 0 := by norm_num
  have hgrid : (10 : ℚ) ^ places = 10 ^ (places : ℤ) := (zpow_natCast _ _).symm
  rcases le_total k (-places) with hk | hk
  · obtain ⟨m, hm⟩ := Int.eq_ofNat_of_zero_le (show 0 ≤ -places - k by omega)
    have hmultiple : (n : ℚ) / 10 ^ places / 10 ^ k = ((n * 10 ^ m : ℤ) : ℚ) := by
      have hpow : (10 : ℚ) ^ m = 10 ^ (-(places : ℤ)) / 10 ^ k := by
        rw [← zpow_sub₀ hten, hm, zpow_natCast]
      push_cast
      rw [hpow, hgrid, zpow_neg]
      ring
    rw [roundToUnit, hmultiple, roundHalfEven_intCast, ← hmultiple,
      div_mul_cancel₀ _ (zpow_ne_zero k hten)]
    exact ⟨n, rfl⟩
  · obtain ⟨m, hm⟩ := Int.eq_ofNat_of_zero_le (show 0 ≤ k + places by omega)
    refine ⟨roundHalfEven (n / 10 ^ places / 10 ^ k) * 10 ^ m, ?_⟩
    have hpow : (10 : ℚ) ^ k = 10 ^ m / 10 ^ places := by
      rw [hgrid, eq_div_iff (zpow_ne_zero _ hten), ← zpow_add₀ hten, hm, zpow_natCast]
    rw [roundToUnit]
    push_cast
    rw [mul_div_assoc, ← hpow]

theorem onGrid_inContext (h : HasPlaces places q) (hz : inContext q = .ok z) : OnGrid places z := by
  rw [inContext] at hz
  split at hz
  · cases hz
  · obtain rfl := Except.ok.inj hz
    exact hasPlaces_roundToUnit h _

theorem add_comm_decimal (x y : Decimal) : add x y = add y x := by
  cases x with
  | finite q =>
    cases y with
    | finite r => rw [add, add, add_comm q]
    | infinity | nan | snan => rfl
  | infinity a =>
    cases y with
    | infinity b =>
      by_cases h : a = b
      · rw [h]
      · rw [add, add, if_neg h, if_neg (Ne.symm h)]
    | finite | nan | snan => rfl
  | nan | snan =>
    cases y with
    | finite | infinity | nan | snan => rfl
/-- **A sum of numbers on the grid** is on the grid. -/
theorem onGrid_add (hx : OnGrid places x) (hy : OnGrid places y) (hz : add x y = .ok z) :
    OnGrid places z := by
  cases x with
  | finite q =>
    cases y with
    | finite r => exact onGrid_inContext (HasPlaces.add hx hy) hz
    | infinity b => cases hy
    | nan =>
      obtain rfl := Except.ok.inj hz
      trivial
    | snan => cases hy
  | infinity a => cases hx
  | nan =>
    cases y with
    | finite r =>
      obtain rfl := Except.ok.inj hz
      trivial
    | infinity b => cases hy
    | nan =>
      obtain rfl := Except.ok.inj hz
      trivial
    | snan => cases hy
  | snan => cases hx

theorem onGrid_quantize (h : x.quantize places = .ok y) : OnGrid places y := by
  cases x with
  | finite q =>
    rw [Decimal.quantize] at h
    split at h
    · cases h
    · obtain rfl := Except.ok.inj h
      exact hasPlaces_quantizeTo places q
  | infinity a => cases h
  | nan =>
    obtain rfl := Except.ok.inj h
    trivial
  | snan => cases h

/-- **Quantizing what is on the grid** changes nothing. -/
theorem quantize_of_onGrid (hx : OnGrid places x) (h : x.quantize places = .ok y) : y = x := by
  cases x with
  | finite q =>
    rw [Decimal.quantize] at h
    split at h
    · cases h
    · rw [quantizeTo_of_hasPlaces hx] at h
      exact (Except.ok.inj h).symm
  | infinity a => cases hx
  | nan => exact (Except.ok.inj h).symm
  | snan => cases hx

end Decimals

end Aixinwu
