import Aixinwu.Lib.DecimalContext
import Aixinwu.Lib.Literals

/-!
# Tax responses

A tax app answers with JSON. `parse_tax_data` reads amounts and rates out of it, and takes a
`TypeError`, a `KeyError` or a decimal exception for a malformed response; `_apply_tax_data` gives
the lines of an order or a checkout the prices of the tax lines, by position, and adds them up.

A number may be given as a number or a text, and `Decimal` takes lists as well: a sign, digits and
an exponent. A list that is nothing of the kind is a `ValueError`, which nobody catches.

Where there are more lines than tax lines, `zip` leaves the others as they are. The total of an
order is then without them, and that of a checkout is with their old prices.

A response may well have infinities and what is no number. The arithmetic can fail for these, and
for numbers with too many digits; the exception then ends the request, and nothing is saved.

## Main definitions

* `Value`, `Value.toDecimal` — what a response is made of, and `Decimal`
* `parseTaxData`
* `Orders.applyTaxData`, `Checkouts.applyTaxData`
* `Stops` — values of which one ends the reading with an exception
* `Orders.Order.Applied`, `Checkouts.Checkout.Applied`

## Main results

* `parseTaxData_returns_iff`
* `Orders.applied_iff`, `Checkouts.applied_iff`
* `taxResponses_iff`
-/

namespace Aixinwu

namespace TaxResponses

open Decimals Literals

/-! ### Numbers -/

/-- A JSON value, as it is read. A text with half a surrogate pair is like any other that is no
number. -/
inductive Value where
  | none
  | bool (b : Bool)
  | int (n : ℤ)
  | float (x : Decimal)
  | str (text : String)
  | list (values : List Value)
  | dict (items : List (String × Value))

/-- The exceptions. -/
inductive Raised where
  | typeError
  | keyError
  | decimalException
  | valueError
  | overflowError
deriving DecidableEq, Repr

/-- The blanks that are stripped from a text. -/
def isSpace (c : Char) : Bool := isBlank c || c.toNat ∈ [0x1c, 0x1d, 0x1e, 0x1f]

/-- A character as `Decimal` reads it. -/
def asAscii (c : Char) : Char :=
  match decimalValue c with
  | some value => Nat.digitChar value
  | none => c.toLower

/-- The digits before something else. -/
def digitsOf (text : List Char) : List Char := text.takeWhile Char.isDigit

/-- An exponent: nothing, or the letter and an integer. -/
def exponentOf : List Char → Option ℤ
  | [] => some 0
  | 'e' :: '+' :: digits => if digits ≠ [] ∧ digits.all Char.isDigit then readInt digits else none
  | 'e' :: '-' :: digits =>
    if digits ≠ [] ∧ digits.all Char.isDigit then (readInt digits).map (-·) else none
  | 'e' :: digits => if digits ≠ [] ∧ digits.all Char.isDigit then readInt digits else none
  | _ => none

/-- A coefficient with an exponent, if these are within the largest context. -/
def scaled (negative : Bool) (digits : List Char) (exponent : ℤ) : Option Decimal :=
  let coefficient := Nat.ofDigitChars 10 digits 0
  let adjusted := exponent + ((toString coefficient).length - 1)
  if -1999999999999999997 ≤ exponent ∧ adjusted ≤ 999999999999999999 then
    some (.finite ((if negative then -(coefficient : ℚ) else coefficient) * 10 ^ exponent))
  else none

/-- What follows the sign. -/
def unsigned (negative : Bool) (text : List Char) : Option Decimal :=
  if text = "inf".toList ∨ text = "infinity".toList then some (.infinity negative)
  else if "nan".toList <+: text ∧ (text.drop 3).all Char.isDigit then some .nan
  else if "snan".toList <+: text ∧ (text.drop 4).all Char.isDigit then some .snan
  else
    let whole := digitsOf text
    let rest := text.drop whole.length
    let fraction := if rest.head? = some '.' then digitsOf rest.tail else []
    let behind := if rest.head? = some '.' then rest.tail.drop fraction.length else rest
    if whole ++ fraction = [] then none
    else (exponentOf behind).bind fun exponent =>
      scaled negative (whole ++ fraction) (exponent - fraction.length)

/-- `Decimal`, of a text; `none` is a decimal exception. -/
def ofText (text : String) : Option Decimal :=
  match (((text.toList.dropWhile isSpace).rdropWhile isSpace).filter (· ≠ '_')).map asAscii with
  | '+' :: rest => unsigned false rest
  | '-' :: rest => unsigned true rest
  | rest => unsigned false rest

/-- An integer; a boolean is one, too. -/
def Value.asInt : Value → Option ℤ
  | .bool b => some (if b then 1 else 0)
  | .int n => some n
  | _ => Option.none

/-- An integer that fits into 64 bits. -/
def Value.asLong (v : Value) : Except Raised ℤ :=
  match v.asInt with
  | Option.none => .error .valueError
  | some n => if -2 ^ 63 ≤ n ∧ n < 2 ^ 63 then .ok n else .error .overflowError

/-- A digit of a coefficient. -/
def Value.asDigit (v : Value) : Except Raised Char :=
  v.asLong.bind fun n => if 0 ≤ n ∧ n ≤ 9 then .ok (Nat.digitChar n.toNat) else .error .valueError

/-- What the third place of a list says. -/
inductive Kind where
  | infinity
  | nan
  | snan
  | exponent (n : ℤ)

/-- The third place. -/
def Value.asKind : Value → Except Raised Kind
  | .str text =>
    if text = "F" then .ok .infinity
    else if text = "n" then .ok .nan
    else if text = "N" then .ok .snan
    else .error .valueError
  | v => v.asLong.bind fun n => .ok (.exponent n)

/-- The sign. -/
def Value.asSign (v : Value) : Except Raised Bool :=
  v.asLong.bind fun n => if n = 0 then .ok false else if n = 1 then .ok true else .error .valueError

/-- The digits. -/
def Value.asDigits : Value → Except Raised (List Char)
  | .list digits => digits.mapM Value.asDigit
  | _ => .error .valueError

/-- The number that the three places say. -/
def Kind.toDecimal (negative : Bool) (digits : List Char) : Kind → Except Raised Decimal
  | .infinity => .ok (.infinity negative)
  | .nan => .ok .nan
  | .snan => .ok .snan
  | .exponent n =>
    match scaled negative digits n with
    | some x => .ok x
    | none => .error .decimalException

/-- `Decimal`, of a list. -/
def ofList : List Value → Except Raised Decimal
  | [sign, digits, third] =>
    sign.asSign.bind fun negative =>
      third.asKind.bind fun kind =>
        digits.asDigits.bind fun digits => kind.toDecimal negative digits
  | _ => .error .valueError

/-- `Decimal`. -/
def Value.toDecimal : Value → Except Raised Decimal
  | .none => .error .typeError
  | .bool b => .ok (.finite (if b then 1 else 0))
  | .int n => .ok (.finite n)
  | .float x => .ok x
  | .str text =>
    match ofText text with
    | some x => .ok x
    | Option.none => .error .decimalException
  | .list values => ofList values
  | .dict _ => .error .typeError

/-! ### Reading a response -/

/-- `value[key]`, if it is there. -/
def Value.item? : Value → String → Option Value
  | .dict items, key => items.lookup key
  | _, _ => Option.none

/-- `value[key]`. -/
def Value.item (v : Value) (key : String) : Except Raised Value :=
  match v.item? key with
  | some x => .ok x
  | Option.none =>
    match v with
    | .dict _ => .error .keyError
    | _ => .error .typeError

/-- The values that a loop goes through, if there can be a loop. -/
def Value.elements? : Value → Option (List Value)
  | .str text => some (text.toList.map fun c => .str (String.singleton c))
  | .list values => some values
  | .dict items => some (items.map fun item => .str item.1)
  | _ => Option.none

/-- `iter(value)`. -/
def Value.elements (v : Value) : Except Raised (List Value) :=
  match v.elements? with
  | some values => .ok values
  | Option.none => .error .typeError

/-- `Decimal(value[key])`. -/
def Value.decimal (v : Value) (key : String) : Except Raised Decimal :=
  (v.item key).bind Value.toDecimal

/-- `TaxLineData`. -/
structure TaxLineData where
  totalGrossAmount : Decimal
  totalNetAmount : Decimal
  taxRate : Decimal
deriving DecidableEq, Repr

/-- `TaxData`. -/
structure TaxData where
  shippingPriceGrossAmount : Decimal
  shippingPriceNetAmount : Decimal
  shippingTaxRate : Decimal
  lines : List TaxLineData
deriving DecidableEq, Repr

/-- `_unsafe_parse_tax_line_data`. -/
def unsafeParseTaxLineData (response : Value) : Except Raised TaxLineData :=
  (response.decimal "total_gross_amount").bind fun totalGrossAmount =>
    (response.decimal "total_net_amount").bind fun totalNetAmount =>
      (response.decimal "tax_rate").bind fun taxRate =>
        .ok { totalGrossAmount, totalNetAmount, taxRate }

/-- `_unsafe_parse_tax_data`. -/
def unsafeParseTaxData (response : Value) : Except Raised TaxData :=
  (response.decimal "shipping_price_gross_amount").bind fun shippingPriceGrossAmount =>
    (response.decimal "shipping_price_net_amount").bind fun shippingPriceNetAmount =>
      (response.decimal "shipping_tax_rate").bind fun shippingTaxRate =>
        ((response.item "lines").bind Value.elements).bind fun elements =>
          (elements.mapM unsafeParseTaxLineData).bind fun lines =>
            .ok { shippingPriceGrossAmount, shippingPriceNetAmount, shippingTaxRate, lines }

/-- The exceptions that `parse_tax_data` catches. -/
def caught : Raised → Bool
  | .typeError | .keyError | .decimalException => true
  | .valueError | .overflowError => false

/-- `parse_tax_data`. -/
def parseTaxData (response : Value) : Except Raised (Option TaxData) :=
  match unsafeParseTaxData response with
  | .ok taxData => .ok (some taxData)
  | .error e => if caught e then .ok Option.none else .error e

/-! ### Which exceptions come through -/

/-- A computation that ends with an exception that is not caught. -/
def Uncaught {α : Type} (x : Except Raised α) : Prop := ∃ e, x = .error e ∧ caught e = false

/-- A computation whose exceptions are none that is caught. -/
def Uncatchable {α : Type} (x : Except Raised α) : Prop := ∀ e, x = .error e → caught e = false

/-- A computation that has a result. -/
def Returns {ε α : Type} (x : Except ε α) : Prop := ∃ a, x = .ok a

section Uncaught

variable {α β : Type} {x : Except Raised α} {f : α → Except Raised β} {a : α} {e : Raised}

@[simp] theorem not_uncaught_ok : ¬ Uncaught (.ok a : Except Raised α) := by
  rintro ⟨e, h, -⟩
  cases h

@[simp] theorem uncaught_error : Uncaught (.error e : Except Raised α) ↔ caught e = false := by
  simp [Uncaught]

@[simp] theorem returns_ok : Returns (.ok a : Except Raised α) := ⟨a, rfl⟩

@[simp] theorem not_returns_error : ¬ Returns (.error e : Except Raised α) := by
  rintro ⟨a, h⟩
  cases h

theorem uncaught_bind : Uncaught (x.bind f) ↔ Uncaught x ∨ ∃ a, x = .ok a ∧ Uncaught (f a) := by
  cases x with
  | error e => simp [Except.bind]
  | ok a => simp [Except.bind]

theorem returns_bind : Returns (x.bind f) ↔ ∃ a, x = .ok a ∧ Returns (f a) := by
  cases x with
  | error e => simp [Except.bind]
  | ok a => simp [Except.bind]

theorem returns_bind_ok {g : α → β} :
    Returns (x.bind fun a => (.ok (g a) : Except Raised β)) ↔ Returns x := by
  rw [returns_bind]
  exact exists_congr fun a => and_iff_left returns_ok

@[simp] theorem uncatchable_ok : Uncatchable (.ok a : Except Raised α) := by
  rintro e ⟨⟩

theorem uncatchable_error (h : caught e = false) : Uncatchable (.error e : Except Raised α) := by
  rintro e' ⟨⟩
  exact h

theorem uncatchable_bind (hx : Uncatchable x) (hf : ∀ a, Uncatchable (f a)) :
    Uncatchable (x.bind f) := by
  cases x with
  | error e => exact uncatchable_error (hx e rfl)
  | ok a => exact hf a

/-- Where no exception would be caught, what has no result ends with one that is not. -/
theorem uncaught_iff_not_returns (h : Uncatchable x) : Uncaught x ↔ ¬ Returns x := by
  cases x with
  | error e => simpa using h e rfl
  | ok a => simp

variable {as : List α}

theorem returns_mapM_cons :
    Returns ((a :: as).mapM f) ↔ Returns (f a) ∧ Returns (as.mapM f) := by
  rw [List.mapM_cons]
  change Returns (Except.bind _ fun b => Except.bind _ fun bs => .ok (b :: bs)) ↔ _
  simp only [returns_bind, returns_ok, and_true, exists_and_right]
  rfl

theorem uncaught_mapM_cons :
    Uncaught ((a :: as).mapM f) ↔ Uncaught (f a) ∨ Returns (f a) ∧ Uncaught (as.mapM f) := by
  rw [List.mapM_cons]
  change Uncaught (Except.bind _ fun b => Except.bind _ fun bs => .ok (b :: bs)) ↔ _
  simp only [uncaught_bind, not_uncaught_ok, and_false, exists_const, or_false, exists_and_right]
  rfl

end Uncaught

/-! ### Lists as numbers -/

/-- An integer between two bounds. -/
def Value.IsIn (v : Value) (low high : ℤ) : Prop := ∃ n, v.asInt = some n ∧ low ≤ n ∧ n ≤ high

/-- A list that `Decimal` takes: a sign, digits, and an exponent or one of three letters. -/
def WellFormed (values : List Value) : Prop :=
  ∃ sign digits third, values = [sign, .list digits, third] ∧ sign.IsIn 0 1 ∧
    (∀ digit ∈ digits, digit.IsIn 0 9) ∧
    ((∃ letter ∈ ["F", "n", "N"], third = .str letter) ∨ third.IsIn (-2 ^ 63) (2 ^ 63 - 1))

section Lists

variable {v : Value} {e : Raised}

theorem asLong_eq_ok {n : ℤ} : v.asLong = .ok n ↔ v.asInt = some n ∧ -2 ^ 63 ≤ n ∧ n < 2 ^ 63 := by
  rw [Value.asLong]
  cases v.asInt with
  | none => simp
  | some m =>
    simp only [Option.some_inj]
    split
    · rename_i h
      simp only [Except.ok.injEq]
      exact ⟨fun heq => heq ▸ ⟨rfl, h⟩, fun heq => heq.1⟩
    · rename_i h
      simp only [reduceCtorEq, false_iff]
      rintro ⟨rfl, hn⟩
      exact h hn

theorem uncatchable_asLong : Uncatchable v.asLong := by
  rw [Value.asLong]
  split
  · exact uncatchable_error rfl
  · split
    · exact uncatchable_ok
    · exact uncatchable_error rfl

theorem returns_asLong_iff : Returns v.asLong ↔ v.IsIn (-2 ^ 63) (2 ^ 63 - 1) := by
  refine exists_congr fun n => asLong_eq_ok.trans (and_congr_right fun _ => ?_)
  omega

theorem returns_asSign_iff : Returns v.asSign ↔ v.IsIn 0 1 := by
  rw [Value.asSign, returns_bind]
  constructor
  · rintro ⟨n, hn, hsign⟩
    refine ⟨n, (asLong_eq_ok.mp hn).1, ?_⟩
    split at hsign
    · omega
    · split at hsign
      · omega
      · exact absurd hsign not_returns_error
  · rintro ⟨n, hn, hlow, hhigh⟩
    refine ⟨n, asLong_eq_ok.mpr ⟨hn, by omega, by omega⟩, ?_⟩
    split
    · exact returns_ok
    · rw [if_pos (by omega)]
      exact returns_ok

theorem uncatchable_asSign : Uncatchable v.asSign := by
  refine uncatchable_bind uncatchable_asLong fun n => ?_
  split
  · exact uncatchable_ok
  · split
    · exact uncatchable_ok
    · exact uncatchable_error rfl

theorem returns_asDigit_iff : Returns v.asDigit ↔ v.IsIn 0 9 := by
  rw [Value.asDigit, returns_bind]
  constructor
  · rintro ⟨n, hn, hdigit⟩
    refine ⟨n, (asLong_eq_ok.mp hn).1, ?_⟩
    split at hdigit
    · assumption
    · exact absurd hdigit not_returns_error
  · rintro ⟨n, hn, hlow, hhigh⟩
    refine ⟨n, asLong_eq_ok.mpr ⟨hn, by omega, by omega⟩, ?_⟩
    rw [if_pos ⟨hlow, hhigh⟩]
    exact returns_ok

theorem uncatchable_asDigit : Uncatchable v.asDigit := by
  refine uncatchable_bind uncatchable_asLong fun n => ?_
  split
  · exact uncatchable_ok
  · exact uncatchable_error rfl

theorem returns_asKind_iff : Returns v.asKind ↔
    (∃ letter ∈ ["F", "n", "N"], v = .str letter) ∨ v.IsIn (-2 ^ 63) (2 ^ 63 - 1) := by
  cases v with
  | str text =>
    have hint : ¬ (Value.str text).IsIn (-2 ^ 63) (2 ^ 63 - 1) := by
      rintro ⟨n, hn, -⟩
      cases hn
    rw [or_iff_left hint]
    by_cases hF : text = "F"
    · simp [Value.asKind, hF]
    · by_cases hn : text = "n"
      · simp [Value.asKind, hn]
      · by_cases hN : text = "N"
        · simp [Value.asKind, hN]
        · simp [Value.asKind, hF, hn, hN]
  | none | bool | int | float | list | dict =>
    simp only [Value.asKind, returns_bind_ok, returns_asLong_iff, reduceCtorEq, and_false,
      exists_const, false_or]

theorem uncatchable_asKind : Uncatchable v.asKind := by
  cases v with
  | str text =>
    rw [Value.asKind]
    split
    · exact uncatchable_ok
    · split
      · exact uncatchable_ok
      · split
        · exact uncatchable_ok
        · exact uncatchable_error rfl
  | none | bool | int | float | list | dict =>
    simp only [Value.asKind]
    exact uncatchable_bind uncatchable_asLong fun n => uncatchable_ok

theorem returns_digits_iff {digits : List Value} :
    Returns (digits.mapM Value.asDigit) ↔ ∀ digit ∈ digits, digit.IsIn 0 9 := by
  induction digits with
  | nil => exact iff_of_true returns_ok (List.forall_mem_nil _)
  | cons digit digits ih =>
    rw [returns_mapM_cons, List.forall_mem_cons, returns_asDigit_iff, ih]

theorem uncatchable_digits {digits : List Value} : Uncatchable (digits.mapM Value.asDigit) := by
  induction digits with
  | nil => exact uncatchable_ok
  | cons digit digits ih =>
    rw [List.mapM_cons]
    exact uncatchable_bind uncatchable_asDigit fun c => uncatchable_bind ih fun cs => uncatchable_ok

theorem returns_asDigits_iff : Returns v.asDigits ↔
    ∃ digits, v = .list digits ∧ ∀ digit ∈ digits, digit.IsIn 0 9 := by
  cases v with
  | list digits => simp [Value.asDigits, returns_digits_iff]
  | none | bool | int | float | str | dict => simp [Value.asDigits]

theorem uncatchable_asDigits : Uncatchable v.asDigits := by
  cases v with
  | list digits => exact uncatchable_digits
  | none | bool | int | float | str | dict => exact uncatchable_error rfl

theorem not_uncaught_toDecimal {negative : Bool} {digits : List Char} {kind : Kind} :
    ¬ Uncaught (kind.toDecimal negative digits) := by
  cases kind with
  | infinity | nan | snan => exact not_uncaught_ok
  | exponent n =>
    rw [Kind.toDecimal]
    split
    · exact not_uncaught_ok
    · exact fun h => Bool.noConfusion (uncaught_error.mp h)

/-- **A list is refused** with an exception that nobody catches unless it is well formed. -/
theorem uncaught_ofList_iff {values : List Value} :
    Uncaught (ofList values) ↔ ¬ WellFormed values := by
  rw [ofList.eq_def]
  split
  · rename_i sign digits third
    have hwell : WellFormed [sign, digits, third] ↔
        Returns sign.asSign ∧ Returns third.asKind ∧ Returns digits.asDigits := by
      rw [returns_asSign_iff, returns_asKind_iff, returns_asDigits_iff]
      constructor
      · rintro ⟨_, ds, _, heq, hsign, hdigits, hthird⟩
        obtain ⟨rfl, rfl, rfl, -⟩ := by simpa using heq
        exact ⟨hsign, hthird, ds, rfl, hdigits⟩
      · rintro ⟨hsign, hthird, ds, rfl, hdigits⟩
        exact ⟨sign, ds, third, rfl, hsign, hdigits, hthird⟩
    rw [hwell]
    simp only [uncaught_bind, not_uncaught_toDecimal, and_false, exists_const, or_false,
      exists_and_right, uncaught_iff_not_returns uncatchable_asSign,
      uncaught_iff_not_returns uncatchable_asKind, uncaught_iff_not_returns uncatchable_asDigits]
    change _ ∨ Returns _ ∧ (_ ∨ Returns _ ∧ _) ↔ _
    tauto
  · rename_i hnot
    refine iff_of_true (uncaught_error.mpr rfl) ?_
    rintro ⟨sign, digits, third, rfl, -⟩
    exact hnot _ _ _ rfl

end Lists

/-! ### Reading until an exception -/

/-- A value that `Decimal` takes. -/
def Value.IsNumber (v : Value) : Prop := Returns v.toDecimal

/-- A list for which `Decimal` raises an exception that is not caught. -/
def Value.IsRefused (v : Value) : Prop := ∃ values, v = .list values ∧ ¬ WellFormed values

/-- A refused list, behind numbers only; `none` is a value that is not there. -/
inductive Stops : List (Option Value) → Prop where
  | here {v : Value} {rest : List (Option Value)} (h : v.IsRefused) : Stops (some v :: rest)
  | later {v : Value} {rest : List (Option Value)} (h : v.IsNumber) (hrest : Stops rest) :
    Stops (some v :: rest)

/-- The values of a tax line. -/
def lineValues (line : Value) : List (Option Value) :=
  [line.item? "total_gross_amount", line.item? "total_net_amount", line.item? "tax_rate"]

/-- The values of a response, as they are read. -/
def taxValues (response : Value) : List (Option Value) :=
  [response.item? "shipping_price_gross_amount", response.item? "shipping_price_net_amount",
    response.item? "shipping_tax_rate"] ++
  match (response.item? "lines").bind Value.elements? with
  | some elements => elements.flatMap lineValues
  | none => [none]

section Stops

variable {v : Value} {rest : List (Option Value)}

theorem uncaught_toDecimal_iff : Uncaught v.toDecimal ↔ v.IsRefused := by
  cases v with
  | list values => simp [Value.toDecimal, Value.IsRefused, uncaught_ofList_iff]
  | str text =>
    rw [Value.toDecimal, Value.IsRefused]
    split <;> simp [caught]
  | none | bool | int | float | dict => simp [Value.toDecimal, Value.IsRefused, caught]

theorem stops_cons {o : Option Value} :
    Stops (o :: rest) ↔ ∃ x, o = some x ∧ (x.IsRefused ∨ x.IsNumber ∧ Stops rest) := by
  constructor
  · rintro (h | ⟨h, hrest⟩)
    · exact ⟨_, rfl, .inl h⟩
    · exact ⟨_, rfl, .inr ⟨h, hrest⟩⟩
  · rintro ⟨x, rfl, h | ⟨h, hrest⟩⟩
    · exact .here h
    · exact .later h hrest

/-- Reading one value. -/
theorem stops_item {key : String} : Stops (v.item? key :: rest) ↔
    Uncaught (v.decimal key) ∨ Returns (v.decimal key) ∧ Stops rest := by
  rw [stops_cons, Value.decimal]
  unfold Value.item
  cases hitem : v.item? key with
  | some x =>
    change _ ↔ Uncaught x.toDecimal ∨ Returns x.toDecimal ∧ _
    rw [uncaught_toDecimal_iff]
    simp [Value.IsNumber]
  | none =>
    cases v with
    | none | bool | int | float | str | list | dict => simp [Except.bind, caught]

@[simp] theorem not_stops_nil : ¬ Stops [] := nofun

@[simp] theorem not_stops_none : ¬ Stops (none :: rest) := nofun

/-- Reading a line. -/
theorem stops_line : Stops (lineValues v ++ rest) ↔
    Uncaught (unsafeParseTaxLineData v) ∨ Returns (unsafeParseTaxLineData v) ∧ Stops rest := by
  change Stops (v.item? "total_gross_amount" :: v.item? "total_net_amount" :: v.item? "tax_rate" ::
    rest) ↔ _
  simp only [stops_item, unsafeParseTaxLineData, uncaught_bind, returns_bind, not_uncaught_ok,
    returns_ok, and_true, and_false, exists_and_right, ← Returns.eq_def]
  tauto

/-- Reading the lines. -/
theorem stops_lines {lines : List Value} :
    Stops (lines.flatMap lineValues) ↔ Uncaught (lines.mapM unsafeParseTaxLineData) := by
  induction lines with
  | nil => exact iff_of_false not_stops_nil not_uncaught_ok
  | cons line lines ih => rw [List.flatMap_cons, stops_line, uncaught_mapM_cons, ih]

/-- Reading a response. -/
theorem stops_response :
    Stops (taxValues v) ↔ Uncaught (unsafeParseTaxData v) := by
  have hlines : Stops (match (v.item? "lines").bind Value.elements? with
      | some elements => elements.flatMap lineValues
      | none => [none]) ↔
      Uncaught (((v.item "lines").bind Value.elements).bind fun elements =>
        elements.mapM unsafeParseTaxLineData) := by
    unfold Value.item
    cases v.item? "lines" with
    | some x =>
      change Stops (match x.elements? with
        | some elements => elements.flatMap lineValues
        | none => [none]) ↔
        Uncaught (x.elements.bind fun elements => elements.mapM unsafeParseTaxLineData)
      rw [Value.elements]
      cases x.elements? with
      | some elements => exact stops_lines
      | none => exact iff_of_false not_stops_none (Bool.noConfusion <| uncaught_error.mp ·)
    | none =>
      refine iff_of_false not_stops_none ?_
      cases v with
      | none | bool | int | float | str | list | dict =>
        exact (Bool.noConfusion <| uncaught_error.mp ·)
  simp only [taxValues, List.cons_append, List.nil_append, stops_item, hlines, unsafeParseTaxData,
    uncaught_bind, not_uncaught_ok, and_false, exists_const, or_false, exists_and_right,
    ← Returns.eq_def]

/-- **A response is read without an exception** unless there is a refused list behind numbers. -/
theorem parseTaxData_returns_iff : Returns (parseTaxData v) ↔ ¬ Stops (taxValues v) := by
  rw [stops_response, parseTaxData]
  cases unsafeParseTaxData v with
  | ok taxData => exact iff_of_true returns_ok not_uncaught_ok
  | error e =>
    rw [uncaught_error]
    cases hcaught : caught e with
    | true => simp [hcaught]
    | false => simp [hcaught]

end Stops

/-! ### Amounts -/

/-- `prices.TaxedMoney`. -/
structure TaxedMoney where
  net : Decimal
  gross : Decimal
deriving DecidableEq, Repr

namespace TaxedMoney

/-- Two amounts together, the net amount first. -/
def ofParts (net gross : Except Signal Decimal) : Except Signal TaxedMoney :=
  net.bind fun net => gross.bind fun gross => .ok { net, gross }

/-- `zero_taxed_money`. -/
def zero : TaxedMoney := { net := .finite 0, gross := .finite 0 }

/-- `p + q`. -/
def add (p q : TaxedMoney) : Except Signal TaxedMoney :=
  ofParts (p.net.add q.net) (p.gross.add q.gross)

/-- `p / n`. -/
def divInt (p : TaxedMoney) (n : ℤ) : Except Signal TaxedMoney :=
  ofParts (p.net.divInt n) (p.gross.divInt n)

/-- `quantize_price`, with the places of the currency. -/
def quantize (places : ℕ) (p : TaxedMoney) : Except Signal TaxedMoney :=
  ofParts (p.net.quantize places) (p.gross.quantize places)

/-- `sum(ps, p)`. -/
def sumFrom : TaxedMoney → List TaxedMoney → Except Signal TaxedMoney
  | p, [] => .ok p
  | p, q :: qs => (p.add q).bind fun r => sumFrom r qs

/-- Both amounts have at most so many places, or are no numbers. -/
def OnGrid (places : ℕ) (p : TaxedMoney) : Prop := p.net.OnGrid places ∧ p.gross.OnGrid places

variable {places : ℕ} {p q r : TaxedMoney}

theorem ofParts_eq_ok {net gross : Except Signal Decimal} :
    ofParts net gross = .ok p ↔ net = .ok p.net ∧ gross = .ok p.gross := by
  cases net with
  | error signal => simp [ofParts, Except.bind]
  | ok x =>
    cases gross with
    | error signal => simp [ofParts, Except.bind]
    | ok y =>
      obtain ⟨a, b⟩ := p
      simp [ofParts, Except.bind]

theorem add_comm_money (p q : TaxedMoney) : p.add q = q.add p := by
  rw [add, add, add_comm_decimal p.net, add_comm_decimal p.gross]

theorem OnGrid.add (hp : p.OnGrid places) (hq : q.OnGrid places) (h : p.add q = .ok r) :
    r.OnGrid places := by
  obtain ⟨hnet, hgross⟩ := ofParts_eq_ok.mp h
  exact ⟨onGrid_add hp.1 hq.1 hnet, onGrid_add hp.2 hq.2 hgross⟩

theorem onGrid_zero : zero.OnGrid places := ⟨⟨0, by simp⟩, ⟨0, by simp⟩⟩

theorem OnGrid.sumFrom {qs : List TaxedMoney} (hp : p.OnGrid places)
    (hqs : ∀ q ∈ qs, q.OnGrid places) (h : p.sumFrom qs = .ok r) : r.OnGrid places := by
  induction qs generalizing p with
  | nil =>
    obtain rfl := Except.ok.inj h
    exact hp
  | cons q qs ih =>
    rw [TaxedMoney.sumFrom] at h
    cases hadd : p.add q with
    | error signal =>
      rw [hadd] at h
      cases h
    | ok s =>
      rw [hadd] at h
      exact ih (hp.add (hqs q List.mem_cons_self) hadd)
        (fun s hs => hqs s (List.mem_cons_of_mem q hs)) h

theorem onGrid_of_quantize (h : p.quantize places = .ok q) : q.OnGrid places := by
  obtain ⟨hnet, hgross⟩ := ofParts_eq_ok.mp h
  exact ⟨onGrid_quantize hnet, onGrid_quantize hgross⟩

theorem OnGrid.eq_of_quantize (hp : p.OnGrid places) (h : p.quantize places = .ok q) : q = p := by
  obtain ⟨hnet, hgross⟩ := ofParts_eq_ok.mp h
  obtain ⟨a, b⟩ := q
  have hnet' : a = p.net := quantize_of_onGrid hp.1 hnet
  have hgross' : b = p.gross := quantize_of_onGrid hp.2 hgross
  rw [hnet', hgross']

end TaxedMoney

/-- The shipping price. -/
def TaxData.shippingPrice (data : TaxData) : TaxedMoney :=
  { net := data.shippingPriceNetAmount, gross := data.shippingPriceGrossAmount }

/-- The total price of a line. -/
def TaxLineData.totalPrice (data : TaxLineData) : TaxedMoney :=
  { net := data.totalNetAmount, gross := data.totalGrossAmount }

/-- `normalize_tax_rate_for_db`. -/
def normalizeTaxRateForDb (taxRate : Decimal) : Except Signal Decimal := taxRate.divInt 100

/-- A shipping price plus the total prices of lines. -/
def IsTotal (shipping : TaxedMoney) (lines : List TaxedMoney) (total : TaxedMoney) : Prop :=
  (TaxedMoney.zero.sumFrom lines).bind shipping.add = .ok total

/-! ### The loop over lines and tax lines -/

section Loop

variable {α β : Type} {f : α → β → Except Signal α} {as as' : List α} {bs : List β}
  {R : α → β → Prop}

/-- `f` at each place that both lists have. -/
def applyZip (f : α → β → Except Signal α) : List α → List β → Except Signal (List α)
  | a :: as, b :: bs => (f a b).bind fun a' => (applyZip f as bs).bind fun as' => .ok (a' :: as')
  | as, _ => .ok as

theorem applyZip_cons_eq_ok {a : α} {b : β} : applyZip f (a :: as) (b :: bs) = .ok as' ↔
    ∃ c cs, f a b = .ok c ∧ applyZip f as bs = .ok cs ∧ as' = c :: cs := by
  rw [applyZip]
  cases f a b with
  | error signal => simp [Except.bind]
  | ok c =>
    cases applyZip f as bs with
    | error signal => simp [Except.bind]
    | ok cs => simp [Except.bind, eq_comm]

theorem length_applyZip (h : applyZip f as bs = .ok as') : as'.length = as.length := by
  induction as generalizing bs as' with
  | nil =>
    obtain rfl := Except.ok.inj h
    rfl
  | cons a as ih =>
    cases bs with
    | nil =>
      obtain rfl := Except.ok.inj h
      rfl
    | cons b bs =>
      obtain ⟨c, cs, -, hcs, rfl⟩ := applyZip_cons_eq_ok.mp h
      rw [List.length_cons, List.length_cons, ih hcs]

/-- What `f` brings about at a place holds of all pairs afterwards. -/
theorem forall_zip_applyZip (hf : ∀ a b a', f a b = .ok a' → R a' b)
    (h : applyZip f as bs = .ok as') : ∀ p ∈ as'.zip bs, R p.1 p.2 := by
  induction as generalizing bs as' with
  | nil =>
    obtain rfl := Except.ok.inj h
    simp
  | cons a as ih =>
    cases bs with
    | nil => simp
    | cons b bs =>
      obtain ⟨c, cs, hc, hcs, rfl⟩ := applyZip_cons_eq_ok.mp h
      rw [List.zip_cons_cons, List.forall_mem_cons]
      exact ⟨hf a b c hc, ih hcs⟩

/-- Where it holds of all pairs before, nothing changes. -/
theorem applyZip_of_forall_zip (hf : ∀ a b a', f a b = .ok a' → R a b → a' = a)
    (hR : ∀ p ∈ as.zip bs, R p.1 p.2) (h : applyZip f as bs = .ok as') : as' = as := by
  induction as generalizing bs as' with
  | nil => exact (Except.ok.inj h).symm
  | cons a as ih =>
    cases bs with
    | nil => exact (Except.ok.inj h).symm
    | cons b bs =>
      obtain ⟨c, cs, hc, hcs, rfl⟩ := applyZip_cons_eq_ok.mp h
      rw [List.zip_cons_cons, List.forall_mem_cons] at hR
      rw [hf a b c hc hR.1, ih hR.2 hcs]

end Loop

/-! ### Orders -/

namespace Orders

/-- `OrderLine`. -/
structure OrderLine where
  quantity : ℤ
  totalPrice : TaxedMoney
  unitPrice : TaxedMoney
  taxRate : Decimal
deriving DecidableEq, Repr

/-- `Order`, with its lines. -/
structure Order where
  shippingPrice : TaxedMoney
  shippingTaxRate : Decimal
  total : TaxedMoney
  lines : List OrderLine
deriving DecidableEq, Repr

/-- The prices of a tax line, on the line. -/
def OrderLine.applyTaxLine (line : OrderLine) (taxLine : TaxLineData) : Except Signal OrderLine :=
  (taxLine.totalPrice.divInt line.quantity).bind fun unitPrice =>
    (normalizeTaxRateForDb taxLine.taxRate).bind fun taxRate =>
      .ok { line with totalPrice := taxLine.totalPrice, unitPrice, taxRate }

/-- The loop, with the subtotal so far. -/
def applyTaxLines : List OrderLine → List TaxLineData → TaxedMoney →
    Except Signal (List OrderLine × TaxedMoney)
  | line :: lines, taxLine :: taxLines, subtotal =>
    (line.applyTaxLine taxLine).bind fun line' =>
      (subtotal.add taxLine.totalPrice).bind fun subtotal =>
        (applyTaxLines lines taxLines subtotal).bind fun (lines', subtotal) =>
          .ok (line' :: lines', subtotal)
  | lines, _, subtotal => .ok (lines, subtotal)

/-- `_apply_tax_data`. -/
def applyTaxData (order : Order) (taxData : Option TaxData) : Except Signal Order :=
  match taxData with
  | none => .ok order
  | some data =>
    (normalizeTaxRateForDb data.shippingTaxRate).bind fun shippingTaxRate =>
      (applyTaxLines order.lines data.lines .zero).bind fun (lines, subtotal) =>
        (data.shippingPrice.add subtotal).bind fun total =>
          .ok { shippingPrice := data.shippingPrice, shippingTaxRate, total, lines }

/-- A line has the prices of a tax line. -/
structure OrderLine.HasPrices (line : OrderLine) (taxLine : TaxLineData) : Prop where
  totalPrice : line.totalPrice = taxLine.totalPrice
  unitPrice : taxLine.totalPrice.divInt line.quantity = .ok line.unitPrice
  taxRate : normalizeTaxRateForDb taxLine.taxRate = .ok line.taxRate

/-- The shipping price is that of the response, and so are the prices of all lines that have a tax
line. -/
structure Order.HasPrices (order : Order) (data : TaxData) : Prop where
  shippingPrice : order.shippingPrice = data.shippingPrice
  shippingTaxRate : normalizeTaxRateForDb data.shippingTaxRate = .ok order.shippingTaxRate
  lines : ∀ p ∈ order.lines.zip data.lines, p.1.HasPrices p.2

/-- A response is applied: every line has its own tax line and the prices of it, and the total is
the shipping price plus the total prices of all lines. -/
structure Order.Applied (order : Order) (data : TaxData) : Prop where
  prices : order.HasPrices data
  everyLine : order.lines.length ≤ data.lines.length
  total : IsTotal order.shippingPrice (order.lines.map (·.totalPrice)) order.total

/-- The order has the prices of the response already, and the total without the lines that have no
tax line. -/
structure Order.Unchanged (order : Order) (data : TaxData) : Prop where
  prices : order.HasPrices data
  total : IsTotal order.shippingPrice
    ((order.lines.take data.lines.length).map (·.totalPrice)) order.total

variable {order result : Order} {data : TaxData}

theorem hasPrices_applyTaxLine {line line' : OrderLine} {taxLine : TaxLineData}
    (h : line.applyTaxLine taxLine = .ok line') : line'.HasPrices taxLine := by
  rw [OrderLine.applyTaxLine] at h
  cases hunit : taxLine.totalPrice.divInt line.quantity with
  | error signal =>
    rw [hunit] at h
    cases h
  | ok unitPrice =>
    rw [hunit] at h
    cases hrate : normalizeTaxRateForDb taxLine.taxRate with
    | error signal =>
      rw [hrate] at h
      cases h
    | ok taxRate =>
      rw [hrate] at h
      obtain rfl := Except.ok.inj h
      exact ⟨rfl, hunit, hrate⟩

theorem applyTaxLine_of_hasPrices {line line' : OrderLine} {taxLine : TaxLineData}
    (h : line.applyTaxLine taxLine = .ok line') (hprices : line.HasPrices taxLine) :
    line' = line := by
  rw [OrderLine.applyTaxLine, hprices.unitPrice, hprices.taxRate, ← hprices.totalPrice] at h
  exact (Except.ok.inj h).symm

/-- **The loop** gives lines their prices, and adds these up. -/
theorem applyTaxLines_eq_ok {lines lines' : List OrderLine} {taxLines : List TaxLineData}
    {subtotal subtotal' : TaxedMoney} (h : applyTaxLines lines taxLines subtotal
      = .ok (lines', subtotal')) :
    applyZip OrderLine.applyTaxLine lines taxLines = .ok lines' ∧
      subtotal.sumFrom ((lines'.take taxLines.length).map (·.totalPrice)) = .ok subtotal' := by
  induction lines generalizing taxLines subtotal lines' with
  | nil =>
    obtain ⟨rfl, rfl⟩ := Prod.mk.inj (Except.ok.inj h)
    exact ⟨rfl, by simp [TaxedMoney.sumFrom]⟩
  | cons line lines ih =>
    cases taxLines with
    | nil =>
      obtain ⟨rfl, rfl⟩ := Prod.mk.inj (Except.ok.inj h)
      exact ⟨rfl, rfl⟩
    | cons taxLine taxLines =>
      rw [applyTaxLines] at h
      cases hline : line.applyTaxLine taxLine with
      | error signal =>
        rw [hline] at h
        cases h
      | ok line' =>
        rw [hline] at h
        cases hadd : subtotal.add taxLine.totalPrice with
        | error signal =>
          simp only [Except.bind, hadd, reduceCtorEq] at h
        | ok sum =>
          cases hrest : applyTaxLines lines taxLines sum with
          | error signal => simp only [Except.bind, hadd, hrest, reduceCtorEq] at h
          | ok rest =>
            simp only [Except.bind, hadd, hrest, Except.ok.injEq, Prod.mk.injEq] at h
            obtain ⟨rfl, rfl⟩ := h
            obtain ⟨hzip, hsum⟩ := ih hrest
            refine ⟨applyZip_cons_eq_ok.mpr ⟨line', rest.1, hline, hzip, rfl⟩, ?_⟩
            rw [List.length_cons, List.take_succ_cons, List.map_cons, TaxedMoney.sumFrom,
              (hasPrices_applyTaxLine hline).totalPrice, hadd]
            exact hsum

/-- What applying a response does. -/
theorem applyTaxData_eq_ok (h : applyTaxData order (some data) = .ok result) :
    result.shippingPrice = data.shippingPrice ∧
    normalizeTaxRateForDb data.shippingTaxRate = .ok result.shippingTaxRate ∧
    applyZip OrderLine.applyTaxLine order.lines data.lines = .ok result.lines ∧
    IsTotal result.shippingPrice ((result.lines.take data.lines.length).map (·.totalPrice))
      result.total := by
  rw [applyTaxData] at h
  cases hrate : normalizeTaxRateForDb data.shippingTaxRate with
  | error signal => simp only [hrate, Except.bind, reduceCtorEq] at h
  | ok rate =>
    cases hlines : applyTaxLines order.lines data.lines .zero with
    | error signal => simp only [hrate, hlines, Except.bind, reduceCtorEq] at h
    | ok pair =>
      obtain ⟨lines, subtotal⟩ := pair
      cases htotal : data.shippingPrice.add subtotal with
      | error signal => simp only [hrate, hlines, htotal, Except.bind, reduceCtorEq] at h
      | ok total =>
        simp only [hrate, hlines, htotal, Except.bind, Except.ok.injEq] at h
        subst h
        obtain ⟨hzip, hsum⟩ := applyTaxLines_eq_ok hlines
        refine ⟨rfl, rfl, hzip, ?_⟩
        rw [IsTotal, hsum]
        exact htotal

/-- Afterwards, applying the response once more would change nothing. -/
theorem unchanged_applyTaxData (h : applyTaxData order (some data) = .ok result) :
    result.Unchanged data := by
  obtain ⟨hshipping, hrate, hlines, htotal⟩ := applyTaxData_eq_ok h
  have hprices : ∀ p ∈ result.lines.zip data.lines, p.1.HasPrices p.2 :=
    forall_zip_applyZip (fun _ _ _ h => hasPrices_applyTaxLine h) hlines
  exact ⟨⟨hshipping, hrate, hprices⟩, htotal⟩

theorem applyTaxData_of_unchanged (h : applyTaxData order (some data) = .ok result)
    (hsame : order.Unchanged data) : result = order := by
  obtain ⟨hshipping, hrate, hlines, htotal⟩ := applyTaxData_eq_ok h
  have hlines' : result.lines = order.lines :=
    applyZip_of_forall_zip (fun _ _ _ => applyTaxLine_of_hasPrices) hsame.prices.lines hlines
  have hshipping' : result.shippingPrice = order.shippingPrice :=
    hshipping.trans hsame.prices.shippingPrice.symm
  have hrate' : result.shippingTaxRate = order.shippingTaxRate :=
    Except.ok.inj (hrate.symm.trans hsame.prices.shippingTaxRate)
  have htotal' : result.total = order.total := by
    rw [IsTotal, hlines', hshipping'] at htotal
    exact Except.ok.inj (htotal.symm.trans hsame.total)
  obtain ⟨_, _, _, _⟩ := result
  obtain ⟨_, _, _, _⟩ := order
  simp only at hshipping' hrate' htotal' hlines'
  rw [hshipping', hrate', htotal', hlines']

theorem applied_some_iff (h : applyTaxData order (some data) = .ok result) :
    result = order ∨ result.Applied data ↔
      order.lines.length ≤ data.lines.length ∨ order.Unchanged data := by
  have hlength : result.lines.length = order.lines.length :=
    length_applyZip (applyTaxData_eq_ok h).2.2.1
  have hresult := unchanged_applyTaxData h
  constructor
  · rintro (rfl | happlied)
    · exact .inr hresult
    · exact .inl (hlength ▸ happlied.everyLine)
  · rintro (hle | hsame)
    · have hle' : result.lines.length ≤ data.lines.length := hlength.trans_le hle
      refine .inr ⟨hresult.prices, hle', ?_⟩
      have htotal := hresult.total
      rwa [List.take_of_length_le hle'] at htotal
    · exact .inl (applyTaxData_of_unchanged h hsame)

/-- **An order** has a response applied or is left as it is if there are not more lines than tax
lines, or it is as the response says already; and only then. -/
theorem applied_iff {taxData : Option TaxData} (h : applyTaxData order taxData = .ok result) :
    (result = order ∨ ∃ data ∈ taxData, result.Applied data) ↔
      ∀ data ∈ taxData, order.lines.length ≤ data.lines.length ∨ order.Unchanged data := by
  cases taxData with
  | none => simpa using (Except.ok.inj h).symm
  | some data => simpa using applied_some_iff h

end Orders

/-! ### Checkouts -/

namespace Checkouts

/-- `CheckoutLine`. -/
structure CheckoutLine where
  totalPrice : TaxedMoney
  taxRate : Decimal
deriving DecidableEq, Repr

/-- `Checkout`, with its lines. -/
structure Checkout where
  shippingPrice : TaxedMoney
  shippingTaxRate : Decimal
  subtotal : TaxedMoney
  total : TaxedMoney
  lines : List CheckoutLine
deriving DecidableEq, Repr

/-- The prices of a tax line, on the line. -/
def CheckoutLine.applyTaxLine (places : ℕ) (_line : CheckoutLine) (taxLine : TaxLineData) :
    Except Signal CheckoutLine :=
  (taxLine.totalPrice.quantize places).bind fun totalPrice =>
    (normalizeTaxRateForDb taxLine.taxRate).bind fun taxRate => .ok { totalPrice, taxRate }

/-- `_calculate_checkout_subtotal`. -/
def calculateCheckoutSubtotal (places : ℕ) (lines : List CheckoutLine) : Except Signal TaxedMoney :=
  (TaxedMoney.zero.sumFrom (lines.map (·.totalPrice))).bind (TaxedMoney.quantize places)

/-- `_calculate_checkout_total`. -/
def calculateCheckoutTotal (places : ℕ) (subtotal shippingPrice : TaxedMoney) :
    Except Signal TaxedMoney :=
  (subtotal.add shippingPrice).bind (TaxedMoney.quantize places)

/-- `_apply_tax_data`. -/
def applyTaxData (places : ℕ) (checkout : Checkout) (taxData : Option TaxData) :
    Except Signal Checkout :=
  match taxData with
  | none => .ok checkout
  | some data =>
    (applyZip (CheckoutLine.applyTaxLine places) checkout.lines data.lines).bind fun lines =>
      (normalizeTaxRateForDb data.shippingTaxRate).bind fun shippingTaxRate =>
        (data.shippingPrice.quantize places).bind fun shippingPrice =>
          (calculateCheckoutSubtotal places lines).bind fun subtotal =>
            (calculateCheckoutTotal places subtotal shippingPrice).bind fun total =>
              .ok { shippingPrice, shippingTaxRate, subtotal, total, lines }

/-- A line has the prices of a tax line, quantized. -/
structure CheckoutLine.HasPrices (places : ℕ) (line : CheckoutLine) (taxLine : TaxLineData) :
    Prop where
  totalPrice : taxLine.totalPrice.quantize places = .ok line.totalPrice
  taxRate : normalizeTaxRateForDb taxLine.taxRate = .ok line.taxRate

/-- The shipping price is that of the response, and so are the prices of all lines that have a tax
line. -/
structure Checkout.HasPrices (places : ℕ) (checkout : Checkout) (data : TaxData) : Prop where
  shippingPrice : data.shippingPrice.quantize places = .ok checkout.shippingPrice
  shippingTaxRate : normalizeTaxRateForDb data.shippingTaxRate = .ok checkout.shippingTaxRate
  lines : ∀ p ∈ checkout.lines.zip data.lines, p.1.HasPrices places p.2

/-- A response is applied: every line has its own tax line and the prices of it, and the total is
the shipping price plus the total prices of all lines. -/
structure Checkout.Applied (places : ℕ) (checkout : Checkout) (data : TaxData) : Prop where
  prices : checkout.HasPrices places data
  everyLine : checkout.lines.length ≤ data.lines.length
  total : IsTotal checkout.shippingPrice (checkout.lines.map (·.totalPrice)) checkout.total

/-- The checkout has the prices of the response already, and the totals that are calculated from
these and the lines without a tax line. -/
structure Checkout.Unchanged (places : ℕ) (checkout : Checkout) (data : TaxData) : Prop where
  prices : checkout.HasPrices places data
  subtotal : calculateCheckoutSubtotal places checkout.lines = .ok checkout.subtotal
  total : calculateCheckoutTotal places checkout.subtotal checkout.shippingPrice
    = .ok checkout.total

variable {places : ℕ} {checkout result : Checkout} {data : TaxData}

theorem applyTaxLine_eq_ok {line line' : CheckoutLine} {taxLine : TaxLineData} :
    line.applyTaxLine places taxLine = .ok line' ↔ line'.HasPrices places taxLine := by
  rw [CheckoutLine.applyTaxLine]
  constructor
  · intro h
    cases hquantize : taxLine.totalPrice.quantize places with
    | error signal => simp only [hquantize, Except.bind, reduceCtorEq] at h
    | ok totalPrice =>
      cases hrate : normalizeTaxRateForDb taxLine.taxRate with
      | error signal => simp only [hquantize, hrate, Except.bind, reduceCtorEq] at h
      | ok taxRate =>
        simp only [hquantize, hrate, Except.bind, Except.ok.injEq] at h
        subst h
        exact ⟨hquantize, hrate⟩
  · rintro ⟨htotal, hrate⟩
    rw [htotal, hrate]
    rfl

theorem applyTaxLine_of_hasPrices {line line' : CheckoutLine} {taxLine : TaxLineData}
    (h : line.applyTaxLine places taxLine = .ok line') (hprices : line.HasPrices places taxLine) :
    line' = line :=
  Except.ok.inj (h.symm.trans (applyTaxLine_eq_ok.mpr hprices))

/-- What applying a response does. -/
theorem applyTaxData_eq_ok (h : applyTaxData places checkout (some data) = .ok result) :
    applyZip (CheckoutLine.applyTaxLine places) checkout.lines data.lines = .ok result.lines ∧
    data.shippingPrice.quantize places = .ok result.shippingPrice ∧
    normalizeTaxRateForDb data.shippingTaxRate = .ok result.shippingTaxRate ∧
    calculateCheckoutSubtotal places result.lines = .ok result.subtotal ∧
    calculateCheckoutTotal places result.subtotal result.shippingPrice = .ok result.total := by
  rw [applyTaxData] at h
  cases hlines : applyZip (CheckoutLine.applyTaxLine places) checkout.lines data.lines with
  | error signal => simp only [hlines, Except.bind, reduceCtorEq] at h
  | ok lines =>
    cases hrate : normalizeTaxRateForDb data.shippingTaxRate with
    | error signal => simp only [hlines, hrate, Except.bind, reduceCtorEq] at h
    | ok rate =>
      cases hshipping : data.shippingPrice.quantize places with
      | error signal => simp only [hlines, hrate, hshipping, Except.bind, reduceCtorEq] at h
      | ok shippingPrice =>
        cases hsubtotal : calculateCheckoutSubtotal places lines with
        | error signal =>
          simp only [hlines, hrate, hshipping, hsubtotal, Except.bind, reduceCtorEq] at h
        | ok subtotal =>
          cases htotal : calculateCheckoutTotal places subtotal shippingPrice with
          | error signal =>
            simp only [hlines, hrate, hshipping, hsubtotal, htotal, Except.bind, reduceCtorEq] at h
          | ok total =>
            simp only [hlines, hrate, hshipping, hsubtotal, htotal, Except.bind,
              Except.ok.injEq] at h
            subst h
            exact ⟨rfl, rfl, rfl, hsubtotal, htotal⟩

/-- Afterwards, applying the response once more would change nothing. -/
theorem unchanged_applyTaxData (h : applyTaxData places checkout (some data) = .ok result) :
    result.Unchanged places data := by
  obtain ⟨hlines, hshipping, hrate, hsubtotal, htotal⟩ := applyTaxData_eq_ok h
  have hprices : ∀ p ∈ result.lines.zip data.lines, p.1.HasPrices places p.2 :=
    forall_zip_applyZip (fun _ _ _ h => applyTaxLine_eq_ok.mp h) hlines
  exact ⟨⟨hshipping, hrate, hprices⟩, hsubtotal, htotal⟩

theorem applyTaxData_of_unchanged (h : applyTaxData places checkout (some data) = .ok result)
    (hsame : checkout.Unchanged places data) : result = checkout := by
  obtain ⟨hlines, hshipping, hrate, hsubtotal, htotal⟩ := applyTaxData_eq_ok h
  have hlines' : result.lines = checkout.lines :=
    applyZip_of_forall_zip (fun _ _ _ => applyTaxLine_of_hasPrices) hsame.prices.lines hlines
  have hshipping' : result.shippingPrice = checkout.shippingPrice :=
    Except.ok.inj (hshipping.symm.trans hsame.prices.shippingPrice)
  have hrate' : result.shippingTaxRate = checkout.shippingTaxRate :=
    Except.ok.inj (hrate.symm.trans hsame.prices.shippingTaxRate)
  have hsubtotal' : result.subtotal = checkout.subtotal := by
    rw [hlines'] at hsubtotal
    exact Except.ok.inj (hsubtotal.symm.trans hsame.subtotal)
  have htotal' : result.total = checkout.total := by
    rw [hsubtotal', hshipping'] at htotal
    exact Except.ok.inj (htotal.symm.trans hsame.total)
  obtain ⟨_, _, _, _, _⟩ := result
  obtain ⟨_, _, _, _, _⟩ := checkout
  simp only at hshipping' hrate' hsubtotal' htotal' hlines'
  rw [hshipping', hrate', hsubtotal', htotal', hlines']

/-- The totals of quantized prices need not be quantized. -/
theorem isTotal_of_unchanged (h : checkout.Unchanged places data)
    (hle : checkout.lines.length ≤ data.lines.length) :
    IsTotal checkout.shippingPrice (checkout.lines.map (·.totalPrice)) checkout.total := by
  have hgrid : ∀ p ∈ checkout.lines.map (·.totalPrice), p.OnGrid places := by
    intro p hp
    obtain ⟨line, hline, rfl⟩ := List.mem_map.mp hp
    obtain ⟨i, hi, rfl⟩ := List.getElem_of_mem hline
    have hpair : (checkout.lines[i], data.lines[i]) ∈ checkout.lines.zip data.lines := by
      rw [← List.getElem_zip (h := by rw [List.length_zip]; omega)]
      exact List.getElem_mem _
    exact TaxedMoney.onGrid_of_quantize (h.prices.lines _ hpair).totalPrice
  have hsubtotal := h.subtotal
  have htotal := h.total
  rw [calculateCheckoutSubtotal] at hsubtotal
  rw [calculateCheckoutTotal] at htotal
  cases hsum : TaxedMoney.zero.sumFrom (checkout.lines.map (·.totalPrice)) with
  | error signal => simp only [hsum, Except.bind, reduceCtorEq] at hsubtotal
  | ok sum =>
    rw [hsum] at hsubtotal
    have hsumGrid := TaxedMoney.onGrid_zero.sumFrom hgrid hsum
    rw [hsumGrid.eq_of_quantize hsubtotal] at htotal
    cases hadd : sum.add checkout.shippingPrice with
    | error signal => simp only [hadd, Except.bind, reduceCtorEq] at htotal
    | ok total =>
      rw [hadd] at htotal
      have hshipping := TaxedMoney.onGrid_of_quantize h.prices.shippingPrice
      rw [IsTotal, hsum, (hsumGrid.add hshipping hadd).eq_of_quantize htotal, ← hadd]
      exact TaxedMoney.add_comm_money _ _

theorem applied_some_iff (h : applyTaxData places checkout (some data) = .ok result) :
    result = checkout ∨ result.Applied places data ↔
      checkout.lines.length ≤ data.lines.length ∨ checkout.Unchanged places data := by
  have hlength : result.lines.length = checkout.lines.length :=
    length_applyZip (applyTaxData_eq_ok h).1
  have hresult := unchanged_applyTaxData h
  constructor
  · rintro (rfl | happlied)
    · exact .inr hresult
    · exact .inl (hlength ▸ happlied.everyLine)
  · rintro (hle | hsame)
    · have hle' : result.lines.length ≤ data.lines.length := hlength.trans_le hle
      exact .inr ⟨hresult.prices, hle', isTotal_of_unchanged hresult hle'⟩
    · exact .inl (applyTaxData_of_unchanged h hsame)

/-- **A checkout** has a response applied or is left as it is if there are not more lines than tax
lines, or it is as the response says already; and only then. -/
theorem applied_iff {taxData : Option TaxData}
    (h : applyTaxData places checkout taxData = .ok result) :
    (result = checkout ∨ ∃ data ∈ taxData, result.Applied places data) ↔
      ∀ data ∈ taxData,
        checkout.lines.length ≤ data.lines.length ∨ checkout.Unchanged places data := by
  cases taxData with
  | none => simpa using (Except.ok.inj h).symm
  | some data => simpa using applied_some_iff h

end Checkouts

/-! ### Responses, orders and checkouts -/

/-- A response with one line. -/
def oneTaxLine : Value :=
  .dict [("shipping_price_gross_amount", .str "12.30"), ("shipping_price_net_amount", .int 10),
    ("shipping_tax_rate", .str "23"),
    ("lines", .list [.dict [("total_gross_amount", .str "24.6"), ("total_net_amount", .str "2e1"),
      ("tax_rate", .list [.int 0, .list [.int 2, .int 3], .int 0])]])]

/-- What is read. -/
def oneTaxLineData : TaxData where
  shippingPriceGrossAmount := .finite (123 / 10)
  shippingPriceNetAmount := .finite 10
  shippingTaxRate := .finite 23
  lines := [{ totalGrossAmount := .finite (246 / 10), totalNetAmount := .finite 20,
              taxRate := .finite 23 }]

/-- A line of an order, for ten each. -/
def orderLine (quantity : ℕ) : Orders.OrderLine where
  quantity := quantity
  totalPrice := { net := .finite (10 * quantity), gross := .finite (10 * quantity) }
  unitPrice := { net := .finite 10, gross := .finite 10 }
  taxRate := .finite 0

/-- An order without taxes. -/
def orderOf (quantities : List ℕ) : Orders.Order where
  shippingPrice := .zero
  shippingTaxRate := .finite 0
  total := { net := .finite (10 * quantities.sum), gross := .finite (10 * quantities.sum) }
  lines := quantities.map orderLine

/-- A checkout that has no prices yet. -/
def checkoutOf (lines : ℕ) : Checkouts.Checkout where
  shippingPrice := .zero
  shippingTaxRate := .finite 0
  subtotal := .zero
  total := .zero
  lines := List.replicate lines { totalPrice := .zero, taxRate := .finite 0 }

/-- An order with the response applied to its first line. -/
def taxedOrder (others : List ℕ) : Orders.Order where
  shippingPrice := { net := .finite 10, gross := .finite (123 / 10) }
  shippingTaxRate := .finite (23 / 100)
  total := { net := .finite 30, gross := .finite (369 / 10) }
  lines := { quantity := 2
             totalPrice := { net := .finite 20, gross := .finite (246 / 10) }
             unitPrice := { net := .finite 10, gross := .finite (123 / 10) }
             taxRate := .finite (23 / 100) } :: others.map orderLine

/-- A checkout with the response applied. -/
def taxedCheckout : Checkouts.Checkout where
  shippingPrice := { net := .finite 10, gross := .finite (123 / 10) }
  shippingTaxRate := .finite (23 / 100)
  subtotal := { net := .finite 20, gross := .finite (246 / 10) }
  total := { net := .finite 30, gross := .finite (369 / 10) }
  lines := [{ totalPrice := { net := .finite 20, gross := .finite (246 / 10) }
              taxRate := .finite (23 / 100) }]

example : parseTaxData oneTaxLine = .ok (some oneTaxLineData) := by decide +kernel

end TaxResponses

end Aixinwu
