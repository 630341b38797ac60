import Mathlib.Algebra.Order.Round
import Mathlib.Data.Rat.Floor
import Mathlib.Tactic.Linarith
import Mathlib.Tactic.Ring

/-!
# Rounding decimals to a column's grid

A decimal column keeps a fixed number of places. Counted in units of its last place, its values
are the integers, and a decimal computed in memory is a rational that is rounded when it is
written. Two rounding rules occur: half away from zero, which is what a database applies to a
value with too many places, and half to even, which is what decimal arithmetic applies when it is
told to quantize.

The recurring question is whether rounding commutes with adding what is stored already. Half away
from zero it does, except at a tie that changes sign on the way: `roundHalfAway_intCast_add_iff`.

## Main definitions

* `roundHalfAway` — to the nearest integer, ties away from zero
* `quantize` — to the nearest multiple of a unit, ties to the even multiple
* `quantizeTo` — to a number of places, ties to the even digit

## Main results

* `roundHalfAway_intCast_add_iff` — when writing a sum adds the written value
* `roundHalfAway_add_sub_iff` — when an amount arrives as it was taken
* `quantize_eq_self_iff` — what quantizing leaves alone
* `quantizeTo_of_hasPlaces`, `HasPlaces.add` — quantized decimals add up exactly
* `quantizeTo_le_iff`, `quantizeTo_nonneg_iff` — what is rounded to at most, or at least, an amount
-/

namespace Aixinwu

namespace Decimals

/-! ### Half away from zero -/

/-- The nearest integer, ties away from zero. -/
def roundHalfAway (q : ℚ) : ℤ := if 0 ≤ q then round q else -round (-q)

@[simp] theorem roundHalfAway_intCast (n : ℤ) : roundHalfAway n = n := by
  rw [roundHalfAway]
  split
  · exact round_intCast n
  · rw [← Int.cast_neg, round_intCast, neg_neg]

/-- `q` lies halfway between two integers. -/
def IsTie (q : ℚ) : Prop := Int.fract q = 1 / 2

instance (q : ℚ) : Decidable (IsTie q) := inferInstanceAs (Decidable (_ = _))

theorem isTie_intCast_add (n : ℤ) (q : ℚ) : IsTie (n + q) ↔ IsTie q := by
  rw [IsTie, IsTie, Int.fract_intCast_add]

/-- Away from the ties there is one nearest integer. -/
theorem roundHalfAway_of_not_isTie {q : ℚ} (h : ¬ IsTie q) : roundHalfAway q = round q := by
  rw [roundHalfAway]
  split
  · rfl
  · have hf₀ := Int.fract_nonneg q
    have hf₁ := Int.fract_lt_one q
    have hq : q = ⌊q⌋ + Int.fract q := (Int.floor_add_fract q).symm
    rw [IsTie] at h
    rw [round_eq, round_eq]
    rcases lt_or_gt_of_ne h with hlt | hgt
    · have h₁ : ⌊q + 1 / 2⌋ = ⌊q⌋ := by rw [Int.floor_eq_iff]; constructor <;> linarith
      have h₂ : ⌊-q + 1 / 2⌋ = -⌊q⌋ := by
        rw [Int.floor_eq_iff]; push_cast; constructor <;> linarith
      rw [h₁, h₂, neg_neg]
    · have h₁ : ⌊q + 1 / 2⌋ = ⌊q⌋ + 1 := by
        rw [Int.floor_eq_iff]; push_cast; constructor <;> linarith
      have h₂ : ⌊-q + 1 / 2⌋ = -⌊q⌋ - 1 := by
        rw [Int.floor_eq_iff]; push_cast; constructor <;> linarith
      rw [h₁, h₂]; ring

/-- At a tie the sign decides. -/
theorem roundHalfAway_of_isTie {q : ℚ} (h : IsTie q) :
    roundHalfAway q = if 0 ≤ q then ⌊q⌋ + 1 else ⌊q⌋ := by
  have hq : q = ⌊q⌋ + 1 / 2 := by rw [← h]; exact (Int.floor_add_fract q).symm
  rw [roundHalfAway]
  split
  · rw [round_eq, Int.floor_eq_iff]; push_cast; constructor <;> linarith
  · have h₂ : ⌊-q + 1 / 2⌋ = -⌊q⌋ := by
      rw [Int.floor_eq_iff]; push_cast; constructor <;> linarith
    rw [round_eq, h₂, neg_neg]

/-- **Writing a sum adds the written value**, unless the addend is a tie and the sum has the
other sign. -/
theorem roundHalfAway_intCast_add_iff (n : ℤ) (q : ℚ) :
    roundHalfAway (n + q) = n + roundHalfAway q ↔ (IsTie q → (0 ≤ n + q ↔ 0 ≤ q)) := by
  by_cases h : IsTie q
  · rw [roundHalfAway_of_isTie h, roundHalfAway_of_isTie ((isTie_intCast_add n q).mpr h),
      Int.floor_intCast_add]
    by_cases h₁ : 0 ≤ (n : ℚ) + q <;> by_cases h₂ : 0 ≤ q <;> simp [h, h₁, h₂]
    omega
  · rw [roundHalfAway_of_not_isTie h,
      roundHalfAway_of_not_isTie (mt (isTie_intCast_add n q).mp h), round_intCast_add]
    simp [h]

theorem roundHalfAway_neg (q : ℚ) : roundHalfAway (-q) = -roundHalfAway q := by
  rcases lt_trichotomy q 0 with h | rfl | h
  · rw [roundHalfAway, roundHalfAway, if_pos (by linarith), if_neg (by linarith), neg_neg]
  · simp [roundHalfAway]
  · rw [roundHalfAway, roundHalfAway, if_neg (by linarith), if_pos h.le, neg_neg]

theorem isTie_neg (q : ℚ) : IsTie (-q) ↔ IsTie q := by
  rw [IsTie, IsTie]
  by_cases h : Int.fract q = 0
  · rw [Int.fract_neg_eq_zero.mpr h, h]
  · rw [Int.fract_neg h]
    constructor <;> intro heq <;> linarith

/-- **Moving an amount** from one stored value to another adds to the one what it takes from the
other, unless the amount is a tie: away from zero is up for both. Below zero the receiver is rounded
down. -/
theorem roundHalfAway_add_sub_iff (b : ℤ) {c : ℤ} {q : ℚ} (hqc : q ≤ c) :
    roundHalfAway (b + q) - b = c - roundHalfAway (c - q) ↔ (IsTie q → (b : ℚ) + q < 0) := by
  have hc : 0 ≤ (c : ℚ) + -q := by linarith
  rw [sub_eq_add_neg (c : ℚ)]
  by_cases h : IsTie q
  · have hfloor : ⌊-q⌋ = -⌊q⌋ - 1 := by
      have hsplit : q = ⌊q⌋ + 1 / 2 := by rw [← h]; exact (Int.floor_add_fract q).symm
      rw [Int.floor_eq_iff]
      push_cast
      constructor <;> linarith
    rw [roundHalfAway_of_isTie ((isTie_intCast_add b q).mpr h), Int.floor_intCast_add,
      roundHalfAway_of_isTie ((isTie_intCast_add c (-q)).mpr ((isTie_neg q).mpr h)),
      Int.floor_intCast_add, hfloor, if_pos hc]
    by_cases hb : 0 ≤ (b : ℚ) + q
    · rw [if_pos hb]
      exact ⟨fun heq => by omega, fun hlt => absurd (hlt h) (not_lt.mpr hb)⟩
    · rw [if_neg hb]
      exact ⟨fun _ _ => not_le.mp hb, fun _ => by omega⟩
  · have hb := (roundHalfAway_intCast_add_iff b q).mpr fun htie => absurd htie h
    have hneg := (roundHalfAway_intCast_add_iff c (-q)).mpr fun htie =>
      absurd ((isTie_neg q).mp htie) h
    rw [hb, hneg, roundHalfAway_neg]
    exact ⟨fun _ htie => absurd htie h, fun _ => by omega⟩

/-- Rounding does not leave a range between stored values. -/
theorem roundHalfAway_nonneg {q : ℚ} (h : 0 ≤ q) : 0 ≤ roundHalfAway q := by
  rw [roundHalfAway, if_pos h, round_eq]
  exact Int.floor_nonneg.mpr (by linarith)

theorem roundHalfAway_le {q : ℚ} {c : ℤ} (h : 0 ≤ q) (hc : q ≤ c) : roundHalfAway q ≤ c := by
  rw [roundHalfAway, if_pos h, round_eq, ← Int.lt_add_one_iff, Int.floor_lt]
  push_cast
  linarith

/-! ### Half to even -/

/-- The nearest multiple of `unit`, ties to the even multiple. -/
def quantize (unit : ℕ) (m : ℤ) : ℤ :=
  if 2 * (m % unit) < unit then m / unit * unit
  else if unit < 2 * (m % unit) then (m / unit + 1) * unit
  else if m / unit % 2 = 0 then m / unit * unit
  else (m / unit + 1) * unit

theorem dvd_quantize (unit : ℕ) (m : ℤ) : (unit : ℤ) ∣ quantize unit m := by
  rw [quantize]
  split
  · exact dvd_mul_left ..
  split
  · exact dvd_mul_left ..
  split <;> exact dvd_mul_left ..

/-- Quantizing leaves exactly the multiples of the unit alone. -/
theorem quantize_eq_self_iff {unit : ℕ} (hu : 0 < unit) {m : ℤ} :
    quantize unit m = m ↔ (unit : ℤ) ∣ m := by
  constructor
  · intro h
    rw [← h]
    exact dvd_quantize unit m
  · intro h
    rw [quantize, Int.emod_eq_zero_of_dvd h, if_pos (by simpa using hu)]
    exact Int.ediv_mul_cancel h

@[simp] theorem quantize_one (m : ℤ) : quantize 1 m = m :=
  (quantize_eq_self_iff Nat.one_pos).mpr (one_dvd m)

/-! ### To a number of places -/

/-- The nearest integer, ties to the even one. -/
def roundHalfEven (q : ℚ) : ℤ :=
  if Int.fract q < 1 / 2 then ⌊q⌋
  else if 1 / 2 < Int.fract q then ⌊q⌋ + 1
  else if ⌊q⌋ % 2 = 0 then ⌊q⌋
  else ⌊q⌋ + 1

@[simp] theorem roundHalfEven_intCast (n : ℤ) : roundHalfEven n = n := by
  rw [roundHalfEven, Int.fract_intCast, if_pos (by norm_num), Int.floor_intCast]

/-- The nearest integer is at most `n` up to halfway above `n`, and there if `n` is even. -/
theorem roundHalfEven_le_iff {q : ℚ} {n : ℤ} :
    roundHalfEven q ≤ n ↔ q < n + 1 / 2 ∨ q = n + 1 / 2 ∧ n % 2 = 0 := by
  have hq : q = ⌊q⌋ + Int.fract q := (Int.floor_add_fract q).symm
  have hf₀ := Int.fract_nonneg q
  have hf₁ := Int.fract_lt_one q
  have hcast : ∀ {m : ℤ}, m < n → (m : ℚ) + 1 ≤ n := by
    intro m hm
    exact_mod_cast Int.add_one_le_iff.mpr hm
  have hcast' : ∀ {m : ℤ}, n < m → (n : ℚ) + 1 ≤ m := by
    intro m hm
    exact_mod_cast Int.add_one_le_iff.mpr hm
  rcases lt_trichotomy ⌊q⌋ n with hlt | heq | hgt
  · have hle := hcast hlt
    refine iff_of_true ?_ (Or.inl (by linarith))
    rw [roundHalfEven]
    split_ifs <;> omega
  · have heq' : (⌊q⌋ : ℚ) = n := by rw [heq]
    rw [roundHalfEven, heq]
    split_ifs with hlt hgt heven
    · exact iff_of_true le_rfl (Or.inl (by linarith))
    · refine iff_of_false (by omega) ?_
      rintro (h | ⟨h, -⟩) <;> linarith
    · exact iff_of_true le_rfl (Or.inr ⟨by linarith, heven⟩)
    · refine iff_of_false (by omega) ?_
      rintro (h | ⟨-, h⟩)
      · linarith
      · exact heven h
  · have hle := hcast' hgt
    refine iff_of_false ?_ ?_
    · rw [roundHalfEven]
      split_ifs <;> omega
    · rintro (h | ⟨h, -⟩) <;> linarith

/-- The nearest integer is negative only below minus one half, as zero is even. -/
theorem roundHalfEven_nonneg_iff {q : ℚ} : 0 ≤ roundHalfEven q ↔ -(1 / 2) ≤ q := by
  have hneg : roundHalfEven q ≤ -1 ↔ q < -(1 / 2) := by
    rw [roundHalfEven_le_iff]
    push_cast
    constructor
    · rintro (h | ⟨-, h⟩)
      · linarith
      · contradiction
    · exact fun h => Or.inl (by linarith)
  rw [← not_lt (a := q), ← hneg]
  omega

/-- `q` rounded to `places` decimal places. -/
def quantizeTo (places : ℕ) (q : ℚ) : ℚ := roundHalfEven (q * 10 ^ places) / 10 ^ places

/-- `q` has no more than `places` decimal places. -/
def HasPlaces (places : ℕ) (q : ℚ) : Prop := ∃ n : ℤ, q = n / 10 ^ places

theorem hasPlaces_quantizeTo (places : ℕ) (q : ℚ) : HasPlaces places (quantizeTo places q) :=
  ⟨roundHalfEven (q * 10 ^ places), rfl⟩

theorem hasPlaces_zero (places : ℕ) : HasPlaces places 0 := ⟨0, by simp⟩

theorem HasPlaces.add {places : ℕ} {q r : ℚ} (hq : HasPlaces places q) (hr : HasPlaces places r) :
    HasPlaces places (q + r) := by
  obtain ⟨n, rfl⟩ := hq
  obtain ⟨m, rfl⟩ := hr
  exact ⟨n + m, by rw [Int.cast_add, add_div]⟩

/-- Quantizing leaves a decimal with few enough places alone. -/
theorem quantizeTo_of_hasPlaces {places : ℕ} {q : ℚ} (h : HasPlaces places q) :
    quantizeTo places q = q := by
  obtain ⟨n, rfl⟩ := h
  rw [quantizeTo, div_mul_cancel₀ _ (pow_ne_zero places (by norm_num)), roundHalfEven_intCast]

theorem pow_ten_pos (places : ℕ) : (0 : ℚ) < 10 ^ places := by positivity

/-- Half of the smallest amount with `places` decimal places. -/
def half (places : ℕ) : ℚ := 1 / 2 / 10 ^ places

/-- Rounded to `places` decimal places, `q` is at most the amount of `n` units of the last place. -/
def RoundsAtMost (places : ℕ) (q : ℚ) (n : ℤ) : Prop :=
  q < n / 10 ^ places + half places ∨ q = n / 10 ^ places + half places ∧ n % 2 = 0

instance (places : ℕ) (q : ℚ) (n : ℤ) : Decidable (RoundsAtMost places q n) :=
  inferInstanceAs (Decidable (_ ∨ _))

theorem quantizeTo_le_iff {places : ℕ} {q : ℚ} {n : ℤ} :
    quantizeTo places q ≤ n / 10 ^ places ↔ RoundsAtMost places q n := by
  have hpos := pow_ten_pos places
  have hedge : (n : ℚ) / 10 ^ places + half places = (n + 1 / 2) / 10 ^ places := by
    rw [half, add_div]
  rw [quantizeTo, div_le_div_iff_of_pos_right hpos, Int.cast_le, roundHalfEven_le_iff, RoundsAtMost,
    hedge, lt_div_iff₀ hpos, eq_div_iff hpos.ne']

/-- Rounded to `places` decimal places, `q` is the amount of `n` units of the last place. -/
def RoundsTo (places : ℕ) (q : ℚ) (n : ℤ) : Prop :=
  RoundsAtMost places q n ∧ ¬ RoundsAtMost places q (n - 1)

instance (places : ℕ) (q : ℚ) (n : ℤ) : Decidable (RoundsTo places q n) :=
  inferInstanceAs (Decidable (_ ∧ _))

theorem quantizeTo_eq_iff {places : ℕ} {q : ℚ} {n : ℤ} :
    quantizeTo places q = n / 10 ^ places ↔ RoundsTo places q n := by
  have hpos := pow_ten_pos places
  rw [RoundsTo, ← quantizeTo_le_iff, ← quantizeTo_le_iff, quantizeTo, div_left_inj' hpos.ne',
    div_le_div_iff_of_pos_right hpos, div_le_div_iff_of_pos_right hpos, Int.cast_inj, Int.cast_le,
    Int.cast_le]
  omega

/-- A quotient needs no rounding if, rounded, it gives back what was divided. -/
theorem quantizeTo_div_mul_eq_iff {places : ℕ} {q r : ℚ} (hr : r ≠ 0) :
    quantizeTo places (q / r) * r = q ↔ HasPlaces places (q / r) := by
  rw [← eq_div_iff hr]
  exact ⟨fun h => h ▸ hasPlaces_quantizeTo _ _, quantizeTo_of_hasPlaces⟩

theorem HasPlaces.mul_natCast {places : ℕ} {q : ℚ} (h : HasPlaces places q) (k : ℕ) :
    HasPlaces places (q * k) := by
  obtain ⟨n, rfl⟩ := h
  exact ⟨n * k, by push_cast; ring⟩

/-- Against any bound, it is the units that fit into the bound which count. -/
theorem quantizeTo_le_iff_floor {places : ℕ} {q x : ℚ} :
    quantizeTo places q ≤ x ↔ RoundsAtMost places q ⌊x * 10 ^ places⌋ := by
  have hpos := pow_ten_pos places
  rw [← quantizeTo_le_iff, quantizeTo, div_le_div_iff_of_pos_right hpos, Int.cast_le, Int.le_floor,
    div_le_iff₀ hpos]

theorem quantizeTo_nonneg_iff {places : ℕ} {q : ℚ} :
    0 ≤ quantizeTo places q ↔ -half places ≤ q := by
  have hpos := pow_ten_pos places
  rw [quantizeTo, half, ← neg_div, div_le_iff₀ hpos, le_div_iff₀ hpos, zero_mul,
    ← roundHalfEven_nonneg_iff]
  exact Int.cast_nonneg_iff

theorem half_pos (places : ℕ) : 0 < half places := div_pos (by norm_num) (pow_ten_pos places)

theorem quantizeTo_nonneg {places : ℕ} {q : ℚ} (h : 0 ≤ q) : 0 ≤ quantizeTo places q :=
  quantizeTo_nonneg_iff.mpr ((neg_nonpos.mpr (half_pos places).le).trans h)

end Decimals

end Aixinwu
