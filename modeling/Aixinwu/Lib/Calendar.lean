import Mathlib.Data.Prod.Lex
import Mathlib.Order.Interval.Set.Basic

/-!
# Calendar dates

The dates of the proleptic Gregorian calendar from the year 1 to the year 9999, as `datetime.date`
has them, and the relative deltas of `dateutil` that go forward. Adding one first moves the year
and the month, cuts the day off at the end of the new month, and then goes on day by day; it has
no value past the last year.

The cut makes the addition forgetful: a month after the 31st of January is the 28th of February,
and a month after that is the 28th of March. What stays true of every start is that a delta that
is not zero leads to a later date, **`lt_of_add`**; this is what makes a loop that adds it
terminate.

## Main definitions

* `Date`, `Date.ofYMD`
* `RelativeDelta`, `Date.add`
* `Datetime`, `Date.midnight`

## Main results

* `lt_of_add`
* `midnight_le_midnight`, `midnight_lt_midnight`
-/

namespace Aixinwu

namespace Calendar

/-! ### Dates -/

/-- `calendar.isleap`. -/
def isLeap (year : ℕ) : Bool :=
  year % 4 == 0 && (year % 100 != 0 || year % 400 == 0)

/-- The number of days of a month, the second value of `calendar.monthrange`. -/
def daysInMonth (year month : ℕ) : ℕ :=
  if month = 2 then
    if isLeap year then 29 else 28
  else if month = 4 ∨ month = 6 ∨ month = 9 ∨ month = 11 then 30
  else 31

theorem daysInMonth_le (year month : ℕ) : daysInMonth year month ≤ 31 := by
  rw [daysInMonth]
  split_ifs <;> omega

/-- What `datetime.date` checks of its arguments. -/
def IsDate (year month day : ℕ) : Prop :=
  (1 ≤ year ∧ year ≤ 9999) ∧ (1 ≤ month ∧ month ≤ 12) ∧ 1 ≤ day ∧ day ≤ daysInMonth year month

instance (year month day : ℕ) : Decidable (IsDate year month day) :=
  inferInstanceAs (Decidable (_ ∧ _))

/-- A date. -/
@[ext] structure Date where
  year : ℕ
  month : ℕ
  day : ℕ
  /-- The date is in the calendar. -/
  isDate : IsDate year month day
deriving DecidableEq

namespace Date

/-- `date(year, month, day)`; `none` is the `ValueError`. -/
def ofYMD (year month day : ℕ) : Option Date :=
  if h : IsDate year month day then some ⟨year, month, day, h⟩ else none

theorem of_ofYMD {year month day : ℕ} {d : Date} (h : ofYMD year month day = some d) :
    d.year = year ∧ d.month = month ∧ d.day = day := by
  rw [ofYMD] at h
  split_ifs at h
  obtain rfl := Option.some.inj h
  exact ⟨rfl, rfl, rfl⟩

/-- Dates compare by year, then by month, then by day. -/
def key (d : Date) : ℕ ×ₗ ℕ ×ₗ ℕ := toLex (d.year, toLex (d.month, d.day))

theorem key_injective : Function.Injective key := by
  intro a b h
  have h' : (a.year, a.month, a.day) = (b.year, b.month, b.day) := h
  simp only [Prod.mk.injEq] at h'
  exact Date.ext h'.1 h'.2.1 h'.2.2

instance : LinearOrder Date := LinearOrder.lift' key key_injective

theorem lt_iff {a b : Date} :
    a < b ↔ a.year < b.year ∨
      a.year = b.year ∧ (a.month < b.month ∨ a.month = b.month ∧ a.day < b.day) := by
  show a.key < b.key ↔ _
  simp only [key, Prod.Lex.toLex_lt_toLex]

/-- The date written as the number `yyyymmdd`. -/
def number (d : Date) : ℕ := d.year * 10000 + d.month * 100 + d.day

theorem number_lt {a b : Date} (h : a < b) : a.number < b.number := by
  obtain ⟨-, ⟨-, hm⟩, -, hd⟩ := a.isDate
  obtain ⟨-, ⟨-, hm'⟩, hd', -⟩ := b.isDate
  have := daysInMonth_le a.year a.month
  rw [lt_iff] at h
  rw [number, number]
  omega

/-! ### Relative deltas -/

/-- The day after; `none` is the `OverflowError` past the last year. -/
def nextDay (d : Date) : Option Date :=
  if d.day < daysInMonth d.year d.month then ofYMD d.year d.month (d.day + 1)
  else if d.month < 12 then ofYMD d.year (d.month + 1) 1
  else ofYMD (d.year + 1) 1 1

theorem lt_of_nextDay {d d' : Date} (h : d.nextDay = some d') : d < d' := by
  rw [nextDay] at h
  rw [lt_iff]
  split_ifs at h
  all_goals
    obtain ⟨hy, hm, hd⟩ := of_ofYMD h
    omega

/-- `d + timedelta(days=n)`. -/
def addDays : ℕ → Date → Option Date
  | 0, d => some d
  | n + 1, d => d.nextDay.bind (addDays n)

theorem le_of_addDays : ∀ {n : ℕ} {d d' : Date}, addDays n d = some d' → d ≤ d'
  | 0, d, d', h => (Option.some.inj h).le
  | n + 1, d, d', h => by
    obtain ⟨d₁, h₁, h₂⟩ := Option.bind_eq_some_iff.mp h
    exact (lt_of_nextDay h₁).le.trans (le_of_addDays h₂)

theorem lt_of_addDays {n : ℕ} {d d' : Date} (hn : n ≠ 0) (h : addDays n d = some d') :
    d < d' := by
  obtain ⟨n, rfl⟩ := Nat.exists_eq_succ_of_ne_zero hn
  obtain ⟨d₁, h₁, h₂⟩ := Option.bind_eq_some_iff.mp h
  exact (lt_of_nextDay h₁).trans_le (le_of_addDays h₂)

end Date

/-- A `relativedelta` that goes forward. The constructor turns twelve months into a year. -/
structure RelativeDelta where
  years : ℕ
  months : ℕ
  days : ℕ
  months_lt : months < 12

namespace Date

/-- `d + delta` up to the days: the year and the month move, and the day is cut off at the end of
the new month. -/
def shiftMonths (d : Date) (delta : RelativeDelta) : Option Date :=
  let year := d.year + delta.years
  let month := d.month + delta.months
  if 12 < month then
    ofYMD (year + 1) (month - 12) (min (daysInMonth (year + 1) (month - 12)) d.day)
  else ofYMD year month (min (daysInMonth year month) d.day)

/-- `d + delta`. -/
def add (d : Date) (delta : RelativeDelta) : Option Date :=
  (d.shiftMonths delta).bind (addDays delta.days)

theorem of_shiftMonths {d d' : Date} {delta : RelativeDelta}
    (h : d.shiftMonths delta = some d') :
    d'.year * 12 + d'.month =
      d.year * 12 + d.month + (delta.years * 12 + delta.months) ∧
    d'.day = min (daysInMonth d'.year d'.month) d.day := by
  dsimp only [shiftMonths] at h
  split_ifs at h
  all_goals
    obtain ⟨hy, hm, hd⟩ := of_ofYMD h
    rw [← hy, ← hm] at hd
    exact ⟨by omega, hd⟩

theorem lt_of_shiftMonths {d d' : Date} {delta : RelativeDelta}
    (hdelta : delta.years ≠ 0 ∨ delta.months ≠ 0) (h : d.shiftMonths delta = some d') :
    d < d' := by
  have hm := (of_shiftMonths h).1
  obtain ⟨-, ⟨hd₁, hd₂⟩, -⟩ := d.isDate
  obtain ⟨-, ⟨hd₁', hd₂'⟩, -⟩ := d'.isDate
  rw [lt_iff]
  omega

theorem shiftMonths_eq_self {d d' : Date} {delta : RelativeDelta} (hy : delta.years = 0)
    (hm : delta.months = 0) (h : d.shiftMonths delta = some d') : d' = d := by
  obtain ⟨hmonths, hday⟩ := of_shiftMonths h
  obtain ⟨-, ⟨hd₁, hd₂⟩, -, hd⟩ := d.isDate
  obtain ⟨-, ⟨hd₁', hd₂'⟩, -⟩ := d'.isDate
  have hyear : d'.year = d.year := by omega
  have hmonth : d'.month = d.month := by omega
  rw [hyear, hmonth] at hday
  exact Date.ext hyear hmonth (by omega)

/-- **A delta that is not zero leads to a later date.** -/
theorem lt_of_add {d d' : Date} {delta : RelativeDelta}
    (hdelta : delta.years ≠ 0 ∨ delta.months ≠ 0 ∨ delta.days ≠ 0)
    (h : d.add delta = some d') : d < d' := by
  obtain ⟨d₁, h₁, h₂⟩ := Option.bind_eq_some_iff.mp h
  by_cases hshift : delta.years ≠ 0 ∨ delta.months ≠ 0
  · exact (lt_of_shiftMonths hshift h₁).trans_le (le_of_addDays h₂)
  · obtain rfl := shiftMonths_eq_self (by omega) (by omega) h₁
    exact lt_of_addDays (by omega) h₂

end Date

/-! ### Instants -/

/-- An instant: a date and the microseconds since its midnight. -/
@[ext] structure Datetime where
  date : Date
  micros : ℕ
  micros_lt : micros < 86400000000
deriving DecidableEq

namespace Datetime

/-- Instants compare by date, then by the time of the day. -/
def key (t : Datetime) : Date ×ₗ ℕ := toLex (t.date, t.micros)

theorem key_injective : Function.Injective key := by
  intro a b h
  have h' : (a.date, a.micros) = (b.date, b.micros) := h
  simp only [Prod.mk.injEq] at h'
  exact Datetime.ext h'.1 h'.2

instance : LinearOrder Datetime := LinearOrder.lift' key key_injective

theorem le_iff {a b : Datetime} :
    a ≤ b ↔ a.date < b.date ∨ a.date = b.date ∧ a.micros ≤ b.micros := by
  show a.key ≤ b.key ↔ _
  simp only [key, Prod.Lex.toLex_le_toLex]

end Datetime

/-- The first instant of a date. -/
def Date.midnight (d : Date) : Datetime := ⟨d, 0, Nat.succ_pos _⟩

@[simp] theorem midnight_le_midnight {a b : Date} : a.midnight ≤ b.midnight ↔ a ≤ b := by
  rw [Datetime.le_iff, le_iff_lt_or_eq (a := a)]
  exact or_congr_right (and_iff_left (Nat.le_refl 0))

@[simp] theorem midnight_lt_midnight {a b : Date} : a.midnight < b.midnight ↔ a < b := by
  rw [← not_le, ← not_le, midnight_le_midnight]

end Calendar

end Aixinwu
