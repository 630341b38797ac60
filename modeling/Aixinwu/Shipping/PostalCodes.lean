import Aixinwu.Lib.Literals
import Aixinwu.Lib.Patterns
import Mathlib.Data.Char
import Mathlib.Data.List.Lex
import Mathlib.Data.Prod.Lex

/-!
# Postal code rules

`saleor/shipping/postal_codes.py`. A rule of a shipping method has a first and, if it is not open, a
last postal code; what it says of an address is whether its code lies between them. In the United
Kingdom and its islands codes are split into area, district, suffix and inward code, and districts
compare as numbers; in Ireland they are split into two parts; elsewhere the texts are compared.

A code is well formed if the pattern of its country takes it, and elsewhere if it is not empty. The
British pattern takes a newline at the end, as `$` does, and the Irish one says nothing of what comes
behind the code.

A last code that is not well formed is split into nothing, as is the one of an open rule, so that the
rule is open. The columns hold at most 32 characters, far from where `int` refuses a district.

## Main definitions

* `checkPostalCodeInRange`, `isShippingMethodApplicableForPostalCode`
* `ReadsUk`, `ReadsIrish`, `ReadsAny` — well formed codes, and what they are compared by
* `InRange` — a rule as an interval
* `LeavesOpen` — a rule whose last code is not well formed, where that matters

## Main results

* `ukGroups_eq_some_iff`, `irishGroups_eq_some_iff` — what the patterns take, and that there is one way
  to split it
* `isInterval_iff`
-/

namespace Aixinwu

namespace PostalCodes

open Literals Patterns

/-! ### The patterns -/

/-- `[A-Z]`. -/
def isUpper (c : Char) : Bool := 'A' ≤ c && c ≤ 'Z'

/-- `[0-9]`. -/
def isDigit (c : Char) : Bool := '0' ≤ c && c ≤ '9'

/-- `[\dA-Z]`. -/
def isDecimalOrUpper (c : Char) : Bool := isUpper c || isDecimal c

/-- ` ?`. -/
def blank : Piece Char := { chars := (· = ' '), least := 0, most := some 1 }

/-- `([A-Z]{1,2})([0-9]+)([A-Z]?) ?([0-9][A-Z]{2})`. -/
def ukPattern : List (Piece Char) :=
  [{ chars := isUpper, least := 1, most := some 2 },
    { chars := isDigit, least := 1, most := none },
    { chars := isUpper, least := 0, most := some 1 },
    blank,
    { chars := isDigit, least := 1, most := some 1 },
    { chars := isUpper, least := 2, most := some 2 }]

/-- `$`, the end or before a newline at the end. -/
def atEnd (rest : List Char) : Bool := rest = [] || rest = ['\n']

/-- `([\dA-Z]{3}) ?([\dA-Z]{4})`. -/
def irishPattern : List (Piece Char) :=
  [{ chars := isDecimalOrUpper, least := 3, most := some 3 },
    blank,
    { chars := isDecimalOrUpper, least := 4, most := some 4 }]

/-- `int`, of digits. -/
def int (digits : List Char) : ℕ := digits.foldl (fun n c => 10 * n + (c.toNat - '0'.toNat)) 0

/-- Area, district, suffix and inward code. -/
abbrev UkKey := List Char ×ₗ ℕ ×ₗ List Char ×ₗ List Char

/-- The two parts of an Irish code. -/
abbrev IrishKey := List Char ×ₗ List Char

/-- The groups of a match, the second cast to a number. -/
def ukKey (parts : List (List Char)) : Option UkKey :=
  match parts with
  | [area, district, suffix, _, digit, letters] =>
    some (toLex (area, toLex (int district, toLex (suffix, digit ++ letters))))
  | _ => none

/-- The groups of a match. -/
def irishKey (parts : List (List Char)) : Option IrishKey :=
  match parts with
  | [first, _, second] => some (toLex (first, second))
  | _ => none

/-- `group_values` and `cast_tuple_index_to_type`, of one value; what does not match is falsy. -/
def ukGroups (value : String) : Option UkKey := (matchPieces atEnd ukPattern value.toList).bind ukKey

/-- `group_values`, of one value. -/
def irishGroups (value : String) : Option IrishKey :=
  (matchPieces (fun _ => true) irishPattern value.toList).bind irishKey

/-- A text as it is, which is falsy if it is empty. -/
def text (value : String) : Option (List Char) := if value = "" then none else some value.toList

/-! ### The checks -/

/-- `compare_values`; `none` is what is falsy. -/
def compareValues {κ : Type} [LinearOrder κ] (code start last : Option κ) : Bool :=
  match code, start with
  | some code, some start =>
    match last with
    | none => start ≤ code
    | some last => start ≤ code && code ≤ last
  | _, _ => false

/-- `check_uk_postal_code`. -/
def checkUkPostalCode (code start : String) (last : Option String) : Bool :=
  compareValues (ukGroups code) (ukGroups start) (last.bind ukGroups)

/-- `check_irish_postal_code`. -/
def checkIrishPostalCode (code start : String) (last : Option String) : Bool :=
  compareValues (irishGroups code) (irishGroups start) (last.bind irishGroups)

/-- `check_any_postal_code`. -/
def checkAnyPostalCode (code start : String) (last : Option String) : Bool :=
  compareValues (text code) (text start) (last.bind text)

/-- The countries that `country_func_map` maps to `check_uk_postal_code`. -/
def ukCountries : List String := ["GB", "IM", "GG", "JE"]

/-- `check_postal_code_in_range`; `last` is the parameter `end`. -/
def checkPostalCodeInRange (country code start : String) (last : Option String) : Bool :=
  if country ∈ ukCountries then checkUkPostalCode code start last
  else if country = "IE" then checkIrishPostalCode code start last
  else checkAnyPostalCode code start last

/-- `PostalCodeRuleInclusionType`: `INCLUDE` and `EXCLUDE`. -/
inductive InclusionType where
  | including
  | excluding
deriving DecidableEq, Repr

/-- `ShippingMethodPostalCodeRule`; `last` is the column `end`. -/
structure Rule where
  start : String
  last : Option String := none
  inclusionType : InclusionType := .excluding
deriving DecidableEq, Repr

/-- `Address`, as far as it matters here. -/
structure Address where
  country : String
  postalCode : String
deriving DecidableEq, Repr

/-- `check_shipping_method_for_postal_code`: the rules, each with what it says. -/
def checkShippingMethodForPostalCode (address : Address) (rules : List Rule) : List (Rule × Bool) :=
  rules.map fun rule =>
    (rule, checkPostalCodeInRange address.country address.postalCode rule.start rule.last)

/-- `is_shipping_method_applicable_for_postal_code`. -/
def isShippingMethodApplicableForPostalCode (address : Address) (rules : List Rule) : Bool :=
  let results := checkShippingMethodForPostalCode address rules
  if results.isEmpty then true
  else if results.all fun result => result.1.inclusionType = .including then
    results.any fun result => result.2
  else if results.all fun result => result.1.inclusionType = .excluding then
    !results.any fun result => result.2
  else false

example : checkPostalCodeInRange "GB" "BH20 2BC" "BH2 1AA" (some "BH4 9ZZ") = false := by decide

/-! ### Well formed codes -/

/-- A British code and what it is compared by. -/
def ReadsUk (value : String) (key : UkKey) : Prop :=
  ∃ parts, Splits atEnd ukPattern value.toList parts ∧ ukKey parts = some key

/-- An Irish code and what it is compared by. -/
def ReadsIrish (value : String) (key : IrishKey) : Prop :=
  ∃ parts, Splits (fun _ => true) irishPattern value.toList parts ∧ irishKey parts = some key

/-- Any other code is compared as it is. -/
def ReadsAny (value : String) (key : List Char) : Prop := value ≠ "" ∧ value.toList = key

/-- The parts of a British code. -/
structure UkParts (area district suffix gap : List Char) (digit u v : Char) : Prop where
  area_isUpper : ∀ c ∈ area, isUpper c = true
  district_isDigit : ∀ c ∈ district, isDigit c = true
  district_ne : district ≠ []
  suffix_isUpper : ∀ c ∈ suffix, isUpper c = true
  gap_blank : ∀ c ∈ gap, c = ' '
  digit_isDigit : isDigit digit = true
  first_isUpper : isUpper u = true
  second_isUpper : isUpper v = true

theorem exists_of_splits_uk {s : List Char} {parts : List (List Char)}
    (h : Splits atEnd ukPattern s parts) : ∃ area district suffix gap digit u v rest,
      parts = [area, district, suffix, gap, [digit], [u, v]] ∧
      s = area ++ (district ++ (suffix ++ gap)) ++ [digit, u] ++ [v] ++ rest ∧ atEnd rest = true ∧
      UkParts area district suffix gap digit u v := by
  obtain ⟨hfits, rest, rfl, hrest⟩ := h
  obtain _ | @⟨_, area, _, _, harea, hfits⟩ := hfits
  obtain _ | @⟨_, district, _, _, hdistrict, hfits⟩ := hfits
  obtain _ | @⟨_, suffix, _, _, hsuffix, hfits⟩ := hfits
  obtain _ | @⟨_, gap, _, _, hgap, hfits⟩ := hfits
  obtain _ | @⟨_, digits, _, _, hdigits, hfits⟩ := hfits
  obtain _ | @⟨_, letters, _, _, hletters, hfits⟩ := hfits
  obtain _ | _ := hfits
  obtain ⟨digit, rfl⟩ := List.length_eq_one_iff.mp (le_antisymm (hdigits.2.2 1 rfl) hdigits.2.1)
  obtain ⟨u, v, rfl⟩ := List.length_eq_two.mp (le_antisymm (hletters.2.2 2 rfl) hletters.2.1)
  refine ⟨area, district, suffix, gap, digit, u, v, rest, rfl, by simp, hrest, harea.1, hdistrict.1,
    List.ne_nil_of_length_pos hdistrict.2.1, hsuffix.1, fun c hc => ?_, hdigits.1 digit (by simp),
    hletters.1 u (by simp), hletters.1 v (by simp)⟩
  exact of_decide_eq_true (hgap.1 c hc)

/-- What an anchored pattern leaves behind a letter is what is left behind it. -/
theorem rest_unique {front front' rest rest' : List Char} {v v' : Char} (hv : isUpper v = true)
    (hv' : isUpper v' = true) (hrest : atEnd rest = true) (hrest' : atEnd rest' = true)
    (h : front ++ [v] ++ rest = front' ++ [v'] ++ rest') : rest = rest' := by
  have hlast := congrArg List.getLast? h
  simp only [atEnd, Bool.or_eq_true, decide_eq_true_eq] at hrest hrest'
  rcases hrest with rfl | rfl <;> rcases hrest' with rfl | rfl
  · rfl
  · obtain rfl : v = '\n' := by simpa using hlast
    exact absurd hv (by decide)
  · obtain rfl : v' = '\n' := by simpa using hlast.symm
    exact absurd hv' (by decide)
  · rfl

theorem isDigit_of_isUpper {c : Char} (h : isUpper c = true) : isDigit c = false := by
  simp only [isUpper, isDigit, Bool.and_eq_true, decide_eq_true_eq, Bool.and_eq_false_iff,
    decide_eq_false_iff_not, not_le] at h ⊢
  exact .inr ((show '9' < 'A' by decide).trans_le h.1)

theorem isUpper_of_isDigit {c : Char} (h : isDigit c = true) : isUpper c = false :=
  Bool.eq_false_iff.mpr fun hupper => Bool.eq_false_iff.mp (isDigit_of_isUpper hupper) h

/-- What comes behind the area is a digit. -/
theorem UkParts.head_district {area district suffix gap : List Char} {digit u v : Char}
    (h : UkParts area district suffix gap digit u v) :
    ∀ c ∈ (district ++ (suffix ++ gap)).head?, isUpper c = false := by
  obtain ⟨c, district, rfl⟩ := List.exists_cons_of_ne_nil h.district_ne
  intro c' hc'
  obtain rfl : c = c' := by simpa using hc'
  exact isUpper_of_isDigit (h.district_isDigit c (by simp))

/-- What comes behind the district is a letter or a blank. -/
theorem UkParts.head_suffix {area district suffix gap : List Char} {digit u v : Char}
    (h : UkParts area district suffix gap digit u v) :
    ∀ c ∈ (suffix ++ gap).head?, isDigit c = false := by
  intro c hc
  rcases List.mem_append.mp (List.mem_of_mem_head? hc) with hc | hc
  · exact isDigit_of_isUpper (h.suffix_isUpper c hc)
  · rw [h.gap_blank c hc]
    decide

/-- What comes behind the suffix is a blank. -/
theorem UkParts.head_gap {area district suffix gap : List Char} {digit u v : Char}
    (h : UkParts area district suffix gap digit u v) : ∀ c ∈ gap.head?, isUpper c = false := by
  intro c hc
  rw [h.gap_blank c (List.mem_of_mem_head? hc)]
  decide

/-- **A British code can be split in one way only**: from the end up to the inward code, as its length
is fixed, and from the start up to there, as letters and digits take turns. -/
theorem splits_uk_unique {s : List Char} (parts parts' : List (List Char))
    (h : Splits atEnd ukPattern s parts) (h' : Splits atEnd ukPattern s parts') : parts = parts' := by
  obtain ⟨area, district, suffix, gap, digit, u, v, rest, rfl, rfl, hrest, hparts⟩ :=
    exists_of_splits_uk h
  obtain ⟨area', district', suffix', gap', digit', u', v', rest', rfl, heq, hrest', hparts'⟩ :=
    exists_of_splits_uk h'
  obtain rfl := rest_unique hparts.second_isUpper hparts'.second_isUpper hrest hrest' heq
  obtain ⟨hfront, hv⟩ := List.append_inj' (List.append_cancel_right heq) rfl
  obtain ⟨hfront, hu⟩ := List.append_inj' hfront rfl
  obtain ⟨harea, hback⟩ := append_inj_of_class hfront hparts.area_isUpper hparts'.area_isUpper
    hparts.head_district hparts'.head_district
  obtain ⟨hdistrict, hback⟩ := append_inj_of_class hback hparts.district_isDigit
    hparts'.district_isDigit hparts.head_suffix hparts'.head_suffix
  obtain ⟨hsuffix, hgap⟩ := append_inj_of_class hback hparts.suffix_isUpper hparts'.suffix_isUpper
    hparts.head_gap hparts'.head_gap
  simp_all

/-- **An Irish code can be split in one way only**, as the lengths of its parts are fixed and they do
not begin with a blank. -/
theorem splits_irish_unique {s : List Char} (parts parts' : List (List Char))
    (h : Splits (fun _ => true) irishPattern s parts)
    (h' : Splits (fun _ => true) irishPattern s parts') : parts = parts' := by
  have hinv : ∀ {s : List Char} {parts : List (List Char)},
      Splits (fun _ => true) irishPattern s parts → ∃ first gap second rest,
        parts = [first, gap, second] ∧ s = first ++ (gap ++ (second ++ rest)) ∧ first.length = 3 ∧
        (∀ c ∈ gap, (decide (c = ' ')) = true) ∧ second.length = 4 ∧
        ∀ c ∈ (second ++ rest).head?, (decide (c = ' ')) = false := by
    rintro s parts ⟨hfits, rest, rfl, -⟩
    obtain _ | @⟨_, first, _, _, hfirst, hfits⟩ := hfits
    obtain _ | @⟨_, gap, _, _, hgap, hfits⟩ := hfits
    obtain _ | @⟨_, second, _, _, hsecond, hfits⟩ := hfits
    obtain _ | _ := hfits
    refine ⟨first, gap, second, rest, rfl, by simp, le_antisymm (hfirst.2.2 3 rfl) hfirst.2.1, hgap.1,
      le_antisymm (hsecond.2.2 4 rfl) hsecond.2.1, fun c hc => ?_⟩
    obtain ⟨c', second, rfl⟩ := List.exists_cons_of_length_pos (Nat.lt_of_lt_of_le (by decide) hsecond.2.1)
    obtain rfl : c' = c := by simpa using hc
    refine decide_eq_false fun hblank => ?_
    have hclass := hsecond.1 c' (by simp)
    rw [hblank] at hclass
    exact absurd hclass (by decide)
  obtain ⟨first, gap, second, rest, rfl, rfl, hfirst, hgap, hsecond, hhead⟩ := hinv h
  obtain ⟨first', gap', second', rest', rfl, heq, hfirst', hgap', hsecond', hhead'⟩ := hinv h'
  obtain ⟨hfirsts, hback⟩ := List.append_inj heq (hfirst.trans hfirst'.symm)
  obtain ⟨hgaps, hback⟩ := append_inj_of_class hback hgap hgap' hhead hhead'
  obtain ⟨hseconds, -⟩ := List.append_inj hback (hsecond.trans hsecond'.symm)
  rw [hfirsts, hgaps, hseconds]

theorem ukGroups_eq_some_iff {value : String} {key : UkKey} :
    ukGroups value = some key ↔ ReadsUk value key := by
  rw [ukGroups, Option.bind_eq_some_iff]
  exact exists_congr fun parts => and_congr_left fun _ => matchPieces_eq_some_iff splits_uk_unique

theorem irishGroups_eq_some_iff {value : String} {key : IrishKey} :
    irishGroups value = some key ↔ ReadsIrish value key := by
  rw [irishGroups, Option.bind_eq_some_iff]
  exact exists_congr fun parts => and_congr_left fun _ => matchPieces_eq_some_iff splits_irish_unique

theorem text_eq_some_iff {value : String} {key : List Char} :
    text value = some key ↔ ReadsAny value key := by
  rw [text, ReadsAny]
  split <;> simp [*]

/-! ### Rules as intervals -/

section Ranges

variable {κ : Type} [LinearOrder κ]

/-- The code is well formed and not before the first one, which is well formed, too. -/
def FromStart (reads : String → κ → Prop) (code start : String) (key : κ) : Prop :=
  reads code key ∧ ∃ first, reads start first ∧ first ≤ key

/-- A code between the two codes of a rule, of which the last may be missing. -/
def InRange (reads : String → κ → Prop) (code start : String) (last : Option String) : Prop :=
  ∃ key, FromStart reads code start key ∧
    (last = none ∨ last = some "" ∨ ∃ value bound, last = some value ∧ reads value bound ∧ key ≤ bound)

/-- A code from the start on, of a rule with a last code that is not well formed. -/
def LeavesOpen (reads : String → κ → Prop) (code start : String) (last : Option String) : Prop :=
  (∃ key, FromStart reads code start key) ∧
    ∃ value, last = some value ∧ value ≠ "" ∧ ∀ bound, ¬ reads value bound

/-- **A rule is an interval** unless its last code is not well formed and the code is not before the
start. -/
theorem compareValues_iff {read : String → Option κ} {reads : String → κ → Prop}
    (h : ∀ value key, read value = some key ↔ reads value key) (hempty : read "" = none)
    (code start : String) (last : Option String) :
    (compareValues (read code) (read start) (last.bind read) = true ↔ InRange reads code start last) ↔
      ¬ LeavesOpen reads code start last := by
  have hnone : ∀ {value}, read value = none ↔ ∀ key, ¬ reads value key := fun {value} => by
    rw [Option.eq_none_iff_forall_ne_some]
    exact forall_congr' fun key => not_congr (h value key)
  have hsome : ∀ {value key}, read value = some key → ∀ key', reads value key' ↔ key' = key :=
    fun hread key' => by rw [← h, hread, Option.some_inj, eq_comm]
  cases hcode : read code with
  | none =>
    have hcode := hnone.mp hcode
    simp [compareValues, InRange, LeavesOpen, FromStart, hcode]
  | some key =>
    cases hstart : read start with
    | none =>
      have hstart := hnone.mp hstart
      simp [compareValues, InRange, LeavesOpen, FromStart, hstart]
    | some first =>
      have hcode := hsome hcode
      have hstart := hsome hstart
      by_cases hle : first ≤ key
      · cases last with
        | none => simp [compareValues, InRange, LeavesOpen, FromStart, hcode, hstart, hle]
        | some value =>
          cases hvalue : read value with
          | none =>
            have hreads := hnone.mp hvalue
            simp [compareValues, InRange, LeavesOpen, FromStart, hcode, hstart, hle, hvalue, hreads]
          | some bound =>
            have hne : value ≠ "" := by
              rintro rfl
              rw [hempty] at hvalue
              cases hvalue
            have hreads := hsome hvalue
            simp [compareValues, InRange, LeavesOpen, FromStart, hcode, hstart, hle, hvalue, hreads,
              hne]
      · have hcompare : ∀ last, compareValues (some key) (some first) last = false := by
          intro last
          cases last <;> simp [compareValues, hle]
        simp [hcompare, InRange, LeavesOpen, FromStart, hcode, hstart, hle]

end Ranges

/-- A code in the range of a rule, in the order of the country. -/
def InCountryRange (country code start : String) (last : Option String) : Prop :=
  if country ∈ ukCountries then InRange ReadsUk code start last
  else if country = "IE" then InRange ReadsIrish code start last
  else InRange ReadsAny code start last

/-- A rule with a last code that is not well formed in the country. -/
def CountryLeavesOpen (country code start : String) (last : Option String) : Prop :=
  if country ∈ ukCountries then LeavesOpen ReadsUk code start last
  else if country = "IE" then LeavesOpen ReadsIrish code start last
  else LeavesOpen ReadsAny code start last

theorem checkPostalCodeInRange_iff (country code start : String) (last : Option String) :
    (checkPostalCodeInRange country code start last = true ↔ InCountryRange country code start last) ↔
      ¬ CountryLeavesOpen country code start last := by
  rw [checkPostalCodeInRange, InCountryRange, CountryLeavesOpen]
  split
  · exact @compareValues_iff _ _ ukGroups _ (fun _ _ => ukGroups_eq_some_iff) (by decide) code start
      last
  · split
    · exact @compareValues_iff _ _ irishGroups _ (fun _ _ => irishGroups_eq_some_iff) (by decide) code
        start last
    · exact @compareValues_iff _ _ text _ (fun _ _ => text_eq_some_iff) rfl code start last

/-! ### The rules of a method -/

section Rules

variable {address : Address} {rules rules' : List Rule}

/-- What a rule says of an address. -/
def Rule.Says (address : Address) (rule : Rule) : Prop :=
  checkPostalCodeInRange address.country address.postalCode rule.start rule.last = true

theorem applicable_of_including (hne : rules ≠ [])
    (h : ∀ rule ∈ rules, rule.inclusionType = .including) :
    isShippingMethodApplicableForPostalCode address rules = true ↔
      ∃ rule ∈ rules, rule.Says address := by
  have hall : (checkShippingMethodForPostalCode address rules).all
      (fun result => result.1.inclusionType = .including) = true := by
    simpa [checkShippingMethodForPostalCode] using h
  have hsome : (checkShippingMethodForPostalCode address rules).isEmpty = false := by
    simpa [checkShippingMethodForPostalCode] using hne
  simp only [isShippingMethodApplicableForPostalCode, hsome, hall, Bool.false_eq_true, if_false,
    if_true]
  simp [checkShippingMethodForPostalCode, Rule.Says]

theorem applicable_of_excluding (hne : rules ≠ [])
    (h : ∀ rule ∈ rules, rule.inclusionType = .excluding) :
    isShippingMethodApplicableForPostalCode address rules = true ↔
      ¬ ∃ rule ∈ rules, rule.Says address := by
  obtain ⟨rule, hrule⟩ := List.exists_mem_of_ne_nil rules hne
  have hnot : (checkShippingMethodForPostalCode address rules).all
      (fun result => result.1.inclusionType = .including) = false := by
    have hrule' : rule.inclusionType ≠ .including := by simp [h rule hrule]
    simpa [checkShippingMethodForPostalCode] using ⟨rule, hrule, hrule'⟩
  have hall : (checkShippingMethodForPostalCode address rules).all
      (fun result => result.1.inclusionType = .excluding) = true := by
    simpa [checkShippingMethodForPostalCode] using h
  have hsome : (checkShippingMethodForPostalCode address rules).isEmpty = false := by
    simpa [checkShippingMethodForPostalCode] using hne
  simp only [isShippingMethodApplicableForPostalCode, hsome, hall, hnot, Bool.false_eq_true, if_false,
    if_true]
  simp [checkShippingMethodForPostalCode, Rule.Says]

end Rules

/-- **Rules are intervals**, exactly unless the last code of a rule is not well formed and the code is
not before the start; and a method with rules of one type only goes by whether one of them holds,
whatever their order. -/
theorem isInterval_iff (country code start : String) (last : Option String) :
    ((checkPostalCodeInRange country code start last = true ↔
        InCountryRange country code start last) ↔ ¬ CountryLeavesOpen country code start last) ∧
    ∀ (address : Address) (rules rules' : List Rule), rules ≠ [] → rules.Perm rules' →
      ((∀ rule ∈ rules, rule.inclusionType = .including) →
        (isShippingMethodApplicableForPostalCode address rules' = true ↔
          ∃ rule ∈ rules, rule.Says address)) ∧
      ((∀ rule ∈ rules, rule.inclusionType = .excluding) →
        (isShippingMethodApplicableForPostalCode address rules' = true ↔
          ¬ ∃ rule ∈ rules, rule.Says address)) := by
  refine ⟨checkPostalCodeInRange_iff country code start last,
    fun address rules rules' hne hperm => ?_⟩
  have hne' : rules' ≠ [] := fun hnil => hne (hnil ▸ hperm).eq_nil
  simp only [hperm.mem_iff]
  exact ⟨applicable_of_including hne', applicable_of_excluding hne'⟩

/-- A method that does not ship to a range of Polish codes. -/
theorem isInterval_iff_excluded :
    ¬ isShippingMethodApplicableForPostalCode ⟨"PL", "64-620"⟩ [⟨"50-000", "65-000", .excluding⟩]
      = true := by
  rw [((isInterval_iff "PL" "64-620" "50-000" (some "65-000")).2 ⟨"PL", "64-620"⟩
    [⟨"50-000", "65-000", .excluding⟩] _ (List.cons_ne_nil _ _) (List.Perm.refl _)).2 (by decide)]
  exact not_not.mpr ⟨_, List.mem_singleton_self _, by rw [Rule.Says]; decide⟩

/-- A last code of which only the district was given: the rule takes all that comes behind it. -/
theorem not_isInterval_districtOnly :
    ¬ ∀ (country code start : String) (last : Option String),
      checkPostalCodeInRange country code start last = true ↔
        InCountryRange country code start last := by
  intro h
  have hrange := (h "GB" "ZZ9 9ZZ" "BH2 1AA" "BH4").mp (by decide)
  rw [InCountryRange, if_pos (by decide)] at hrange
  obtain ⟨key, -, hopen | hopen | ⟨value, bound, hvalue, hreads, -⟩⟩ := hrange
  · cases hopen
  · exact absurd hopen (by decide)
  · obtain rfl := Option.some.inj hvalue
    have hgroups := ukGroups_eq_some_iff.mpr hreads
    rw [show ukGroups "BH4" = none by decide] at hgroups
    cases hgroups

end PostalCodes

end Aixinwu
