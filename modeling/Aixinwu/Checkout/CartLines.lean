import Aixinwu.Core.Nodes
import Aixinwu.Lib.Dictionaries
import Aixinwu.Lib.Grouping
import Mathlib.Data.Rat.Defs

/-!
# The lines of a cart and what is asked for them

A request to add to a checkout, or to update it, is a list of inputs. Each says what to do with a
variant or with a line, and the inputs for the same thing are put together in one piece of line data
(`group_lines_input_on_add`, `group_lines_input_data_on_update`).

What an input is for is its *address*: a new line of its own, the line of the checkout that has the
variant, or a line that the variant gets because it has none. The line data of a line stands in the
map under the text of the line, that of a variant under the text of the variant. One is the text of a
UUID and the other one denotes a number, so that no line data serves both, as long as the line is one
of the checkout.

## Locals

The loop of an update keeps the ids of an input in locals, which an input without an id would find as
the one before left them. `CheckoutLinesUpdate` turns such an input away first.

## Main definitions

* `CheckoutLine`, `Cart`
* `CheckoutLineData`, `CheckoutLineInput`, `CheckoutLineUpdateInput`
* `addressOnAdd`, `addressOnUpdate` — what an input is for
* `groupLinesInputOnAdd`, `groupLinesInputDataOnUpdate`

## Main results

* `Grouping.mem_data` — what the line data are, by the addresses
-/

namespace Aixinwu

namespace CartLines

open Nodes (Texts)

/-! ### Lines -/

/-- `key: value` pairs, the last of a key counts. -/
abbrev Metadata := List (String × String)

/-- `checkout.models.CheckoutLine`. Its key is a UUID. -/
structure CheckoutLine where
  pk : ℕ
  variant : ℕ
  quantity : ℤ
  priceOverride : Option ℚ := none
  metadata : Dict String String := Dict.empty

instance : HasPk CheckoutLine ℕ := ⟨CheckoutLine.pk⟩

@[simp] theorem pk_checkoutLine (line : CheckoutLine) : HasPk.pk line = line.pk := rfl

/-- The lines of a checkout. -/
abbrev Cart := Table CheckoutLine

/-- `store_value_in_metadata`. -/
def CheckoutLine.storeValueInMetadata (line : CheckoutLine) (items : Metadata) : CheckoutLine :=
  { line with metadata := line.metadata.store (fun item => [item.1]) (·.2) items }

/-- `CheckoutLineData`. -/
structure CheckoutLineData where
  variantId : Option String := none
  lineId : Option String := none
  quantity : ℤ := 0
  quantityToUpdate : Bool := false
  customPrice : Option ℚ := none
  customPriceToUpdate : Bool := false
  metadataList : Option Metadata := none
deriving DecidableEq, Repr

/-! ### Inputs -/

/-- `CheckoutLineInput`. A price may be left out, and it may be `null`. -/
structure CheckoutLineInput where
  variantId : String
  quantity : Option ℤ
  price : Option (Option ℚ) := none
  forceNewLine : Bool := false
  metadata : Option Metadata := none
deriving DecidableEq, Repr

/-- `CheckoutLineUpdateInput`. An id that is left out is empty here: neither is true. -/
structure CheckoutLineUpdateInput where
  variantId : String := ""
  quantity : Option ℤ := none
  price : Option (Option ℚ) := none
  lineId : String := ""
deriving DecidableEq, Repr

/-- How changing a cart can fail. -/
inductive Failure where
  | invalidGlobalId
  | valueError
  | indexError
  | keyError
  | unboundLocalError
  | variantInMultipleLines
  | integrityError
deriving DecidableEq, Repr

/-- What an input is for. -/
inductive Address where
  | newLine (variantId : String)
  | variant (variantId : String)
  | line (lineId : String) (variantId : Option String)
deriving DecidableEq, Repr

variable (texts : Texts) (linesInfo : List CheckoutLine)

/-- `find_line_id_when_variant_parameter_used`. -/
def findLineIdWhenVariantParameterUsed (variantDbId : String) : Except Failure (Option String) :=
  if linesInfo = [] then .ok none
  else
    match texts.int variantDbId with
    | none => .error .valueError
    | some n =>
      match linesInfo.filter fun x => (x.variant : ℤ) = n with
      | [] => .ok none
      | [line] => .ok (some (texts.str line.pk))
      | _ => .error .variantInMultipleLines

/-- `find_variant_id_when_line_parameter_used`. -/
def findVariantIdWhenLineParameterUsed (lineDbId : String) : Except Failure (Option String) :=
  if linesInfo = [] then .ok none
  else
    match linesInfo.filter fun x => texts.str x.pk = lineDbId with
    | [] => .error .indexError
    | line :: _ => .ok (some (toString line.variant))

/-- The second part of a global id. -/
def dbId (globalId : String) : Except Failure String :=
  match texts.fromGlobalId globalId with
  | none => .error .invalidGlobalId
  | some (_, id) => .ok id

/-- The address of an input that adds. -/
def addressOnAdd (input : CheckoutLineInput) : Except Failure Address :=
  (dbId texts input.variantId).bind fun variantDbId =>
    if input.forceNewLine then .ok (.newLine variantDbId)
    else
      match findLineIdWhenVariantParameterUsed texts linesInfo variantDbId with
      -- when variant already exist in multiple lines then create a new line
      | .error .variantInMultipleLines => .ok (.newLine variantDbId)
      | .error e => .error e
      | .ok none => .ok (.variant variantDbId)
      | .ok (some lineDbId) =>
        (findVariantIdWhenLineParameterUsed texts linesInfo lineDbId).map (.line lineDbId)

/-- The locals of the loop of an update, before anything is assigned. -/
structure Locals where
  variantDbId : Option String := none
  lineDbId : Option (Option String) := none

/-- The address of an input that updates, and the locals after it. -/
def addressOnUpdate (locals : Locals) (input : CheckoutLineUpdateInput) :
    Except Failure (Address × Locals) :=
  (if input.lineId = "" then .ok locals
    else (dbId texts input.lineId).map fun t => { locals with lineDbId := some (some t) }).bind
  fun locals =>
    (if input.variantId = "" then .ok locals
      else (dbId texts input.variantId).bind fun t =>
        (findLineIdWhenVariantParameterUsed texts linesInfo t).map fun lineDbId =>
          { variantDbId := some t, lineDbId := some lineDbId }).bind
  fun locals =>
    match locals.lineDbId with
    | none => .error .unboundLocalError
    | some lineDbId =>
      match lineDbId.filter (· ≠ "") with
      | none =>
        match locals.variantDbId with
        | none => .error .unboundLocalError
        | some variantDbId => .ok (.variant variantDbId, locals)
      | some lineDbId =>
        (findVariantIdWhenLineParameterUsed texts linesInfo lineDbId).map fun variantId =>
          (.line lineDbId variantId, locals)

/-! ### Line data -/

/-- What an input writes to its line data. An update leaves the metadata alone. -/
structure Change where
  quantity : Option ℤ
  price : Option (Option ℚ)
  metadata : Option (Option Metadata)
deriving DecidableEq, Repr

/-- What an input that adds writes. -/
def CheckoutLineInput.change (input : CheckoutLineInput) : Change :=
  ⟨input.quantity, input.price, some input.metadata⟩

/-- What an input that updates writes. -/
def CheckoutLineUpdateInput.change (input : CheckoutLineUpdateInput) : Change :=
  ⟨input.quantity, input.price, none⟩

/-- The metadata that an input leaves: those of a line are put together, if neither are empty. -/
def Address.metadata : Address → Option Metadata → Option Metadata → Option Metadata
  | .line _ _, some (item :: items), some (item' :: items') =>
    some (item :: items ++ item' :: items')
  | _, _, metadata => metadata

namespace CheckoutLineData

variable (d : CheckoutLineData)

/-- The ids of the address. -/
def setIds : Address → CheckoutLineData
  | .newLine t | .variant t => { d with variantId := some t }
  | .line l t => { d with lineId := some l, variantId := t }

/-- The quantity, if there is one. -/
def addQuantity : Option ℤ → CheckoutLineData
  | none => d
  | some quantity => { d with quantity := d.quantity + quantity, quantityToUpdate := true }

/-- The price, if there is one. -/
def setPrice : Option (Option ℚ) → CheckoutLineData
  | none => d
  | some price => { d with customPrice := price, customPriceToUpdate := true }

/-- What an input does to its line data. -/
def write (address : Address) (c : Change) : CheckoutLineData :=
  let d := d.setIds address
  let d := match c.metadata with
    | none => d
    | some metadata => { d with metadataList := address.metadata d.metadataList metadata }
  (d.addQuantity c.quantity).setPrice c.price

end CheckoutLineData

/-- The line data so far: those of inputs with a line of their own, and the map. -/
structure Grouped where
  groupedCheckoutLinesData : List CheckoutLineData := []
  checkoutLinesDataMap : List (String × CheckoutLineData) := []

/-- One more input. -/
def Grouped.add (g : Grouped) (address : Address) (c : Change) : Grouped :=
  match address with
  | .newLine _ =>
    { g with groupedCheckoutLinesData :=
        g.groupedCheckoutLinesData ++ [CheckoutLineData.write {} address c] }
  | .variant key | .line key _ =>
    { g with checkoutLinesDataMap :=
        Grouping.alter {} key (·.write address c) g.checkoutLinesDataMap }

/-- Those with a line of their own, then the values of the map. -/
def Grouped.data (g : Grouped) : List CheckoutLineData :=
  g.groupedCheckoutLinesData ++ g.checkoutLinesDataMap.map (·.2)

/-- The loop of an addition. -/
def addLoop (g : Grouped) : List CheckoutLineInput → Except Failure Grouped
  | [] => .ok g
  | input :: inputs =>
    (addressOnAdd texts linesInfo input).bind fun address =>
      addLoop (g.add address input.change) inputs

/-- The loop of an update. -/
def updateLoop (locals : Locals) (g : Grouped) : List CheckoutLineUpdateInput → Except Failure Grouped
  | [] => .ok g
  | input :: inputs =>
    (addressOnUpdate texts linesInfo locals input).bind fun r =>
      updateLoop r.2 (g.add r.1 input.change) inputs

/-- `group_lines_input_on_add`. -/
def groupLinesInputOnAdd (lines : List CheckoutLineInput) : Except Failure (List CheckoutLineData) :=
  (addLoop texts linesInfo {} lines).map Grouped.data

/-- `group_lines_input_data_on_update`. -/
def groupLinesInputDataOnUpdate (lines : List CheckoutLineUpdateInput) :
    Except Failure (List CheckoutLineData) :=
  (updateLoop texts linesInfo {} {} lines).map Grouped.data

/-! ### Targets -/

/-- What an input is for: a line of the checkout, the line that a variant without one gets, or a line
of the input's own. -/
inductive Target where
  | line (pk : ℕ)
  | variant (id : String)
  | newLine (variantId : String)
deriving DecidableEq, Repr

variable {texts linesInfo}

/-- The lines of the variant that a text denotes. -/
def linesOf (texts : Texts) (linesInfo : List CheckoutLine) (variantDbId : String) :
    List CheckoutLine :=
  linesInfo.filter fun x => texts.int variantDbId = some (x.variant : ℤ)

/-- **The target of an input that adds** is the line with its variant, if there is one and it is the
only one. -/
def CheckoutLineInput.target (texts : Texts) (linesInfo : List CheckoutLine)
    (input : CheckoutLineInput) : Option Target :=
  (texts.fromGlobalId input.variantId).map fun p =>
    if input.forceNewLine then .newLine p.2
    else
      match linesOf texts linesInfo p.2 with
      | [] => .variant p.2
      | [line] => .line line.pk
      | _ => .newLine p.2

/-- **The target of an input that updates** is the line it names, or the only line with its variant. -/
def CheckoutLineUpdateInput.target (texts : Texts) (linesInfo : List CheckoutLine)
    (input : CheckoutLineUpdateInput) : Option Target :=
  if input.lineId ≠ "" then
    (texts.fromGlobalId input.lineId).bind fun p => (texts.uuid p.2).map .line
  else
    (texts.fromGlobalId input.variantId).bind fun p =>
      match linesOf texts linesInfo p.2 with
      | [] => some (.variant p.2)
      | [line] => some (.line line.pk)
      | _ => none

/-- An address is that of a target. -/
inductive Address.Is (texts : Texts) (linesInfo : List CheckoutLine) : Address → Target → Prop
  | newLine (t : String) : Is texts linesInfo (.newLine t) (.newLine t)
  | variant (t : String) (h : ∀ line ∈ linesInfo, texts.str line.pk ≠ t) :
    Is texts linesInfo (.variant t) (.variant t)
  | line (line : CheckoutLine) (h : line ∈ linesInfo) :
    Is texts linesInfo (.line (texts.str line.pk) (some (toString line.variant))) (.line line.pk)

/-- UUIDs with the same text are the same. -/
theorem str_injective {u u' : ℕ} (h : texts.str u = texts.str u') : u = u' := by
  have hu := texts.uuid_str u
  rw [h, texts.uuid_str] at hu
  exact (Option.some.inj hu).symm

/-- Numbers with the same text are the same. -/
theorem toString_inj {n m : ℕ} : toString n = toString m ↔ n = m := by
  refine ⟨fun h => ?_, fun h => by rw [h]⟩
  have hn := Nodes.numberOf_toString n
  rw [h, Nodes.numberOf_toString] at hn
  exact (Option.some.inj hn).symm

theorem str_ne_empty (u : ℕ) : texts.str u ≠ "" := by
  intro h
  have hu := texts.uuid_str u
  rw [h, texts.uuid_empty] at hu
  cases hu

/-- The lines of the variant that a number is the key of. -/
theorem linesOf_eq {t : String} {n : ℤ} (hn : texts.int t = some n) :
    linesOf texts linesInfo t = linesInfo.filter fun x => (x.variant : ℤ) = n := by
  refine List.filter_congr fun x _ => ?_
  simp [hn, eq_comm]

/-- What is found for a variant: the only line that has it, or nothing if none has. -/
theorem findLineId_eq_ok {t : String} {l : Option String}
    (h : findLineIdWhenVariantParameterUsed texts linesInfo t = .ok l) :
    (linesOf texts linesInfo t = [] ∧ l = none ∧ ∀ line ∈ linesInfo, texts.str line.pk ≠ t) ∨
    ∃ line, linesOf texts linesInfo t = [line] ∧ l = some (texts.str line.pk) := by
  rw [findLineIdWhenVariantParameterUsed] at h
  split at h
  · rename_i hnone
    subst hnone
    exact Or.inl ⟨rfl, (Except.ok.inj h).symm, by simp⟩
  split at h
  · cases h
  rename_i n hn
  rw [linesOf_eq hn]
  split at h
  · rename_i hfilter
    refine Or.inl ⟨hfilter, (Except.ok.inj h).symm, fun line _ hstr => ?_⟩
    rw [← hstr, texts.int_str] at hn
    cases hn
  · rename_i line hfilter
    exact Or.inr ⟨line, hfilter, (Except.ok.inj h).symm⟩
  · cases h

/-- Where there are several lines, there are at least two. -/
theorem findLineId_eq_variantInMultipleLines {t : String}
    (h : findLineIdWhenVariantParameterUsed texts linesInfo t = .error .variantInMultipleLines) :
    2 ≤ (linesOf texts linesInfo t).length := by
  rw [findLineIdWhenVariantParameterUsed] at h
  split at h
  · cases h
  split at h
  · cases h
  rename_i n hn
  rw [linesOf_eq hn]
  split at h
  · cases h
  · cases h
  · rename_i hnil hone
    have hzero : (linesInfo.filter fun x => (x.variant : ℤ) = n).length ≠ 0 := fun h =>
      hnil (List.length_eq_zero_iff.mp h)
    have hone' : (linesInfo.filter fun x => (x.variant : ℤ) = n).length ≠ 1 := fun h => by
      obtain ⟨line, hline⟩ := List.length_eq_one_iff.mp h
      exact hone line hline
    omega

/-- What is found for a line of the checkout is its variant. -/
theorem findVariantId_eq_ok {l : String} {t : Option String} (hlines : linesInfo ≠ [])
    (h : findVariantIdWhenLineParameterUsed texts linesInfo l = .ok t) :
    ∃ line ∈ linesInfo, l = texts.str line.pk ∧ t = some (toString line.variant) := by
  rw [findVariantIdWhenLineParameterUsed, if_neg hlines] at h
  split at h
  · cases h
  · rename_i line rest hfilter
    have hmem : line ∈ linesInfo.filter fun x => texts.str x.pk = l :=
      hfilter ▸ List.mem_cons_self
    obtain ⟨hline, hstr⟩ := List.mem_filter.mp hmem
    exact ⟨line, hline, (of_decide_eq_true hstr).symm, (Except.ok.inj h).symm⟩

/-- The line that is found for a variant is the target. -/
theorem is_line_of_findVariantId {line : CheckoutLine} {v : Option String} {t : String}
    (hfound : linesOf texts linesInfo t = [line])
    (h : findVariantIdWhenLineParameterUsed texts linesInfo (texts.str line.pk) = .ok v) :
    (Address.line (texts.str line.pk) v).Is texts linesInfo (.line line.pk) := by
  have hline : line ∈ linesInfo := List.mem_of_mem_filter (hfound ▸ List.mem_singleton_self line)
  obtain ⟨line', hline', hstr, rfl⟩ := findVariantId_eq_ok (List.ne_nil_of_mem hline) h
  rw [hstr, str_injective hstr]
  exact .line line' hline'

/-- **An input that adds has its target.** -/
theorem exists_target_of_addressOnAdd {input : CheckoutLineInput} {a : Address}
    (h : addressOnAdd texts linesInfo input = .ok a) :
    ∃ target, input.target texts linesInfo = some target ∧ a.Is texts linesInfo target := by
  obtain ⟨t, ht, h⟩ := exists_of_bind_eq_ok h
  rw [dbId] at ht
  split at ht
  · cases ht
  rename_i type id hid
  obtain rfl := Except.ok.inj ht
  rw [CheckoutLineInput.target, hid, Option.map_some]
  by_cases hforce : input.forceNewLine
  · rw [if_pos hforce] at h ⊢
    exact ⟨_, rfl, (Except.ok.inj h) ▸ .newLine id⟩
  rw [if_neg hforce] at h ⊢
  split at h
  · rename_i hfind
    have htwo := findLineId_eq_variantInMultipleLines hfind
    refine ⟨_, rfl, ?_⟩
    rw [← Except.ok.inj h]
    split
    · rename_i hnil
      simp [hnil] at htwo
    · rename_i hone
      simp [hone] at htwo
    · exact .newLine id
  · cases h
  · rename_i hfind
    obtain ⟨hnil, -, hne⟩ | ⟨line, -, hsome⟩ := findLineId_eq_ok hfind
    · rw [hnil, ← Except.ok.inj h]
      exact ⟨_, rfl, .variant id hne⟩
    · cases hsome
  · rename_i l hfind
    obtain ⟨-, hnone, -⟩ | ⟨line, hone, hsome⟩ := findLineId_eq_ok hfind
    · cases hnone
    · obtain rfl := Option.some.inj hsome
      obtain ⟨v, hv, rfl⟩ := exists_of_map_eq_ok h
      rw [hone]
      exact ⟨_, rfl, is_line_of_findVariantId hone hv⟩

/-- The inputs that `CheckoutLinesUpdate` goes on with: they have one id each, and a line id is of a
line. A checkout without lines has none to name. -/
structure Accepted (texts : Texts) (linesInfo : List CheckoutLine)
    (inputs : List CheckoutLineUpdateInput) : Prop where
  one : ∀ input ∈ inputs, input.lineId = "" ↔ input.variantId ≠ ""
  ofLine : ∀ input ∈ inputs, ∀ type, texts.fromGlobalId input.lineId ≠ some (type, "")
  own : linesInfo = [] → ∀ input ∈ inputs, input.lineId = ""

/-- **An input that updates has its target**, whatever the locals are. -/
theorem exists_target_of_addressOnUpdate {input : CheckoutLineUpdateInput} {a : Address}
    {locals locals' : Locals} (hone : input.lineId = "" ↔ input.variantId ≠ "")
    (hline : ∀ type, texts.fromGlobalId input.lineId ≠ some (type, ""))
    (hown : linesInfo = [] → input.lineId = "")
    (h : addressOnUpdate texts linesInfo locals input = .ok (a, locals')) :
    ∃ target, input.target texts linesInfo = some target ∧ a.Is texts linesInfo target := by
  obtain ⟨locals₁, hlocals₁, h⟩ := exists_of_bind_eq_ok h
  obtain ⟨locals₂, hlocals₂, h⟩ := exists_of_bind_eq_ok h
  rw [CheckoutLineUpdateInput.target]
  by_cases hempty : input.lineId = ""
  · have hvariant := hone.mp hempty
    rw [if_neg (not_not.mpr hempty)]
    rw [if_neg hvariant] at hlocals₂
    obtain ⟨t, ht, hlocals₂⟩ := exists_of_bind_eq_ok hlocals₂
    obtain ⟨l, hfind, rfl⟩ := exists_of_map_eq_ok hlocals₂
    rw [dbId] at ht
    split at ht
    · cases ht
    rename_i type id hid
    obtain rfl := Except.ok.inj ht
    rw [hid, Option.bind_some]
    obtain ⟨hnil, rfl, hne⟩ | ⟨line, hfound, rfl⟩ := findLineId_eq_ok hfind
    · obtain rfl := (Prod.mk.inj (Except.ok.inj h)).1
      rw [hnil]
      exact ⟨_, rfl, .variant id hne⟩
    · have hstr : (some (texts.str line.pk)).filter (· ≠ "") = some (texts.str line.pk) := by
        simp [str_ne_empty]
      dsimp only at h
      rw [hstr] at h
      obtain ⟨v, hv, heq⟩ := exists_of_map_eq_ok h
      obtain rfl := (Prod.mk.inj heq).1
      rw [hfound]
      exact ⟨_, rfl, is_line_of_findVariantId hfound hv⟩
  · have hvariant : input.variantId = "" := by
      by_contra hne
      exact hempty (hone.mpr hne)
    rw [if_pos hempty]
    rw [if_neg hempty] at hlocals₁
    obtain ⟨t, ht, rfl⟩ := exists_of_map_eq_ok hlocals₁
    rw [if_pos hvariant] at hlocals₂
    obtain rfl := Except.ok.inj hlocals₂
    rw [dbId] at ht
    split at ht
    · cases ht
    rename_i type id hid
    obtain rfl := Except.ok.inj ht
    have hid' : id ≠ "" := fun hnil => hline type (hnil ▸ hid)
    have hfilter : (some id).filter (· ≠ "") = some id := by simp [hid']
    dsimp only at h
    rw [hfilter] at h
    obtain ⟨v, hv, heq⟩ := exists_of_map_eq_ok h
    obtain rfl := (Prod.mk.inj heq).1
    obtain ⟨line, hmem, rfl, rfl⟩ := findVariantId_eq_ok (fun hnil => hempty (hown hnil)) hv
    rw [hid, Option.bind_some, texts.uuid_str]
    exact ⟨_, rfl, .line line hmem⟩

/-! ### Entries -/

/-- What an input comes to: its address, which is that of a target, and what it writes. -/
structure Entry (texts : Texts) (linesInfo : List CheckoutLine) where
  address : Address
  target : Target
  change : Change
  is : address.Is texts linesInfo target

/-- The inputs, one after another. -/
def Grouped.addAll (g : Grouped) (es : List (Entry texts linesInfo)) : Grouped :=
  es.foldl (fun g e => g.add e.address e.change) g

/-- The loop of an addition goes through entries for the targets of its inputs. -/
theorem exists_entries_of_addLoop {g g' : Grouped} {inputs : List CheckoutLineInput}
    (h : addLoop texts linesInfo g inputs = .ok g') :
    ∃ es : List (Entry texts linesInfo),
      List.Forall₂ (fun input e => input.target texts linesInfo = some e.target ∧
        e.change = input.change) inputs es ∧ g' = g.addAll es := by
  induction inputs generalizing g with
  | nil => exact ⟨[], .nil, (Except.ok.inj h).symm⟩
  | cons input inputs ih =>
    obtain ⟨address, haddress, h⟩ := exists_of_bind_eq_ok h
    obtain ⟨target, htarget, his⟩ := exists_target_of_addressOnAdd haddress
    obtain ⟨es, hes, rfl⟩ := ih h
    exact ⟨⟨address, target, input.change, his⟩ :: es, .cons ⟨htarget, rfl⟩ hes, rfl⟩

/-- So does the loop of an update. -/
theorem exists_entries_of_updateLoop {locals : Locals} {g g' : Grouped}
    {inputs : List CheckoutLineUpdateInput} (haccepted : Accepted texts linesInfo inputs)
    (h : updateLoop texts linesInfo locals g inputs = .ok g') :
    ∃ es : List (Entry texts linesInfo),
      List.Forall₂ (fun input e => input.target texts linesInfo = some e.target ∧
        e.change = input.change) inputs es ∧ g' = g.addAll es := by
  induction inputs generalizing locals g with
  | nil => exact ⟨[], .nil, (Except.ok.inj h).symm⟩
  | cons input inputs ih =>
    obtain ⟨⟨address, locals'⟩, haddress, h⟩ := exists_of_bind_eq_ok h
    have hrest : Accepted texts linesInfo inputs :=
      ⟨fun i hi => haccepted.one i (List.mem_cons_of_mem _ hi),
        fun i hi => haccepted.ofLine i (List.mem_cons_of_mem _ hi),
        fun hnil i hi => haccepted.own hnil i (List.mem_cons_of_mem _ hi)⟩
    obtain ⟨target, htarget, his⟩ := exists_target_of_addressOnUpdate
      (haccepted.one input List.mem_cons_self) (haccepted.ofLine input List.mem_cons_self)
      (fun hnil => haccepted.own hnil input List.mem_cons_self) haddress
    obtain ⟨es, hes, rfl⟩ := ih hrest h
    exact ⟨⟨address, target, input.change, his⟩ :: es, .cons ⟨htarget, rfl⟩ hes, rfl⟩

/-- The ids that an address gives line data. -/
def Address.lineId : Address → Option String
  | .line l _ => some l
  | _ => none

def Address.variantId : Address → Option String
  | .newLine t | .variant t => some t
  | .line _ t => t

namespace CheckoutLineData

variable (d : CheckoutLineData) (a : Address) (c : Change)

/-- **What writing does to line data.** -/
theorem write_eq : d.write a c =
    { variantId := a.variantId
      lineId := a.lineId.or d.lineId
      quantity := d.quantity + c.quantity.getD 0
      quantityToUpdate := d.quantityToUpdate || c.quantity.isSome
      customPrice := c.price.getD d.customPrice
      customPriceToUpdate := d.customPriceToUpdate || c.price.isSome
      metadataList := c.metadata.elim d.metadataList (a.metadata d.metadataList) } := by
  rcases c with ⟨quantity, price, metadata⟩
  cases a <;> cases quantity <;> cases price <;> cases metadata <;>
    simp [write, setIds, addQuantity, setPrice, Address.variantId, Address.lineId]

@[simp] theorem quantity_write : (d.write a c).quantity = d.quantity + c.quantity.getD 0 :=
  congrArg quantity (write_eq d a c)

@[simp] theorem quantityToUpdate_write :
    (d.write a c).quantityToUpdate = (d.quantityToUpdate || c.quantity.isSome) :=
  congrArg quantityToUpdate (write_eq d a c)

@[simp] theorem lineId_write : (d.write a c).lineId = a.lineId.or d.lineId :=
  congrArg lineId (write_eq d a c)

@[simp] theorem variantId_write : (d.write a c).variantId = a.variantId :=
  congrArg variantId (write_eq d a c)

end CheckoutLineData

/-! ### What the line data are -/

/-- The ids of the line data for a target. -/
def Target.lineId (texts : Texts) : Target → Option String
  | .line u => some (texts.str u)
  | _ => none

def Target.variantId (linesInfo : List CheckoutLine) : Target → Option String
  | .line u => (linesInfo.find? (·.pk = u)).map fun line => toString line.variant
  | .variant t | .newLine t => some t

/-- The key of the line data for a target. -/
def Target.key (texts : Texts) : Target → String
  | .line u => texts.str u
  | .variant t | .newLine t => t

/-- Whether the line data are the input's own. -/
def Target.isNewLine : Target → Bool
  | .newLine _ => true
  | _ => false

/-- What an input asks for: a quantity for a target, if it has one. -/
abbrev Ask := Target × Option ℤ

/-- What is asked for a target, by all inputs for it. -/
def asked (asks : List Ask) (target : Target) : ℤ :=
  sumIf (fun a => decide (a.1 = target)) (fun a => a.2.getD 0) asks

/-- Whether an input for the target has a quantity. -/
def given (asks : List Ask) (target : Target) : Bool :=
  asks.any fun a => decide (a.1 = target) && a.2.isSome

namespace Entry

variable (e : Entry texts linesInfo)

/-- What the input of an entry asks for. -/
def ask : Ask := (e.target, e.change.quantity)

/-- What it writes. -/
def write (d : CheckoutLineData) : CheckoutLineData := d.write e.address e.change

@[simp] theorem ask_fst : e.ask.1 = e.target := rfl

@[simp] theorem ask_snd : e.ask.2 = e.change.quantity := rfl

theorem lineId_address : e.address.lineId = e.target.lineId texts := by
  obtain ⟨address, target, change, his⟩ := e
  cases his <;> rfl

theorem variantId_address (hnodup : (linesInfo.map (·.pk)).Nodup) :
    e.address.variantId = e.target.variantId linesInfo := by
  obtain ⟨address, target, change, his⟩ := e
  cases his with
  | newLine | variant => rfl
  | line line hline =>
    have hfind : linesInfo.find? (·.pk = line.pk) = some line := by
      refine Nodes.find?_eq_some_of_unique hline (decide_eq_true rfl) fun other hother hpk => ?_
      exact List.inj_on_of_nodup_map hnodup hother hline (of_decide_eq_true hpk)
    simp [Address.variantId, Target.variantId, hfind]

/-- A line that is a target is one of the checkout. -/
theorem exists_line {u : ℕ} (h : e.target = .line u) : ∃ line ∈ linesInfo, line.pk = u := by
  obtain ⟨address, target, change, his⟩ := e
  cases his with
  | newLine | variant => cases h
  | line line hline => exact ⟨line, hline, Target.line.inj h⟩

/-- Line data are shared by the inputs for one target. -/
theorem key_eq_iff {e e' : Entry texts linesInfo} (he : e.target.isNewLine = false)
    (he' : e'.target.isNewLine = false) :
    e.target.key texts = e'.target.key texts ↔ e.target = e'.target := by
  refine ⟨fun h => ?_, fun h => by rw [h]⟩
  obtain ⟨address, target, change, his⟩ := e
  obtain ⟨address', target', change', his'⟩ := e'
  cases his with
  | newLine => cases he
  | variant t ht =>
    cases his' with
    | newLine => cases he'
    | variant t' _ => exact congrArg Target.variant h
    | line line hline => exact absurd h.symm (ht line hline)
  | line line hline =>
    cases his' with
    | newLine => cases he'
    | variant t' ht' => exact absurd h (ht' line hline)
    | line line' _ => exact congrArg Target.line (str_injective h)

end Entry

section Data

variable (es : List (Entry texts linesInfo))

/-- The targets whose inputs share line data. -/
def sharedTargets : List Target := ((es.map (·.target)).filter (!·.isNewLine)).dedup

/-- What the inputs for a target write, one after another. -/
def dataFor (target : Target) : CheckoutLineData :=
  (es.filter (·.target = target)).foldl (fun d e => e.write d) {}

variable {es}

theorem mem_sharedTargets {target : Target} :
    target ∈ sharedTargets es ↔ (∃ e ∈ es, e.target = target) ∧ target.isNewLine = false := by
  simp [sharedTargets]

theorem nodup_sharedTargets : (sharedTargets es).Nodup := List.nodup_dedup _

/-- What the inputs leave in the list and in the map. -/
theorem addAll_eq (g : Grouped) (es : List (Entry texts linesInfo)) : g.addAll es =
    { groupedCheckoutLinesData := g.groupedCheckoutLinesData
        ++ (es.filter (·.target.isNewLine)).map (·.write {})
      checkoutLinesDataMap := Grouping.gather {} (·.target.key texts) Entry.write
        (es.filter (!·.target.isNewLine)) g.checkoutLinesDataMap } := by
  induction es generalizing g with
  | nil => simp [Grouped.addAll, Grouping.gather]
  | cons e es ih =>
    have hcons : g.addAll (e :: es) = (g.add e.address e.change).addAll es := rfl
    rw [hcons, ih]
    obtain ⟨address, target, change, his⟩ := e
    cases his with
    | newLine t => simp [Grouped.add, Target.isNewLine, Entry.write]
    | variant | line => rfl

/-- The map has the line data of the shared targets. -/
theorem map_perm : (Grouping.gather {} (fun e => e.target.key texts) Entry.write
      (es.filter (!·.target.isNewLine)) []).Perm
    ((sharedTargets es).map fun target => (target.key texts, dataFor es target)) := by
  have hmem : ∀ target ∈ sharedTargets es,
      ∃ e ∈ es, e.target = target ∧ e.target.isNewLine = false := by
    intro target htarget
    obtain ⟨⟨e, he, rfl⟩, hnew⟩ := mem_sharedTargets.mp htarget
    exact ⟨e, he, rfl, hnew⟩
  have hleft : (Grouping.gather {} (fun e => e.target.key texts) Entry.write
      (es.filter (!·.target.isNewLine)) []).Nodup :=
    List.Nodup.of_map (·.1) (Grouping.nodup_keys_gather _ _ _ (by simp))
  have hright : ((sharedTargets es).map fun target =>
      (target.key texts, dataFor es target)).Nodup := by
    refine nodup_sharedTargets.map_on fun target htarget target' htarget' heq => ?_
    obtain ⟨e, -, rfl, he⟩ := hmem target htarget
    obtain ⟨e', -, rfl, he'⟩ := hmem target' htarget'
    exact (Entry.key_eq_iff he he').mp (Prod.mk.inj heq).1
  -- the inputs with the key of a target are those for it
  have hfilter : ∀ e : Entry texts linesInfo, e.target.isNewLine = false →
      (es.filter (!·.target.isNewLine)).filter (·.target.key texts = e.target.key texts)
        = es.filter (·.target = e.target) := by
    intro e he
    rw [List.filter_filter]
    refine List.filter_congr fun e' _ => ?_
    rw [Bool.eq_iff_iff, Bool.and_eq_true, decide_eq_true_iff, decide_eq_true_iff,
      Bool.not_eq_true']
    constructor
    · rintro ⟨hkey, he'⟩
      exact (Entry.key_eq_iff he' he).mp hkey
    · intro htarget
      rw [htarget]
      exact ⟨rfl, he⟩
  refine (List.perm_ext_iff_of_nodup hleft hright).mpr fun ⟨k, d⟩ => ?_
  rw [Grouping.mem_gather_iff, List.mem_map, List.mem_map]
  constructor
  · rintro ⟨⟨e, he, rfl⟩, rfl⟩
    obtain ⟨he, hnew⟩ := List.mem_filter.mp he
    rw [Bool.not_eq_true'] at hnew
    exact ⟨e.target, mem_sharedTargets.mpr ⟨⟨e, he, rfl⟩, hnew⟩, by rw [hfilter e hnew, dataFor]⟩
  · rintro ⟨target, htarget, heq⟩
    obtain ⟨e, he, rfl, hnew⟩ := hmem target htarget
    obtain ⟨rfl, rfl⟩ := Prod.mk.inj heq
    refine ⟨⟨e, List.mem_filter.mpr ⟨he, by rw [hnew]; rfl⟩, rfl⟩, ?_⟩
    rw [hfilter e hnew, dataFor]

/-- **The line data**: those of the inputs with a line of their own, and one for each target that
inputs share. -/
theorem data_perm : (Grouped.addAll {} es).data.Perm
    ((es.filter (·.target.isNewLine)).map (·.write {}) ++ (sharedTargets es).map (dataFor es)) := by
  rw [addAll_eq, Grouped.data]
  refine List.Perm.append_left _ ?_
  refine (map_perm.map (·.2)).trans (List.Perm.of_eq ?_)
  rw [List.map_map]
  rfl

/-- What a run of inputs leaves of quantities. -/
theorem quantity_foldl (es : List (Entry texts linesInfo)) (d : CheckoutLineData) :
    (es.foldl (fun d e => e.write d) d).quantity
      = d.quantity + (es.map fun e => e.change.quantity.getD 0).sum := by
  induction es generalizing d with
  | nil => simp
  | cons e es ih =>
    rw [List.foldl_cons, ih]
    simp [Entry.write, add_assoc]

theorem quantityToUpdate_foldl (es : List (Entry texts linesInfo)) (d : CheckoutLineData) :
    (es.foldl (fun d e => e.write d) d).quantityToUpdate
      = (d.quantityToUpdate || es.any fun e => e.change.quantity.isSome) := by
  induction es generalizing d with
  | nil => simp
  | cons e es ih =>
    rw [List.foldl_cons, ih]
    simp [Entry.write, Bool.or_assoc]

/-- What a run of inputs for one target leaves of ids. -/
theorem lineId_foldl {es : List (Entry texts linesInfo)} {target : Target}
    (h : ∀ e ∈ es, e.target = target) (hnil : es ≠ []) (d : CheckoutLineData) :
    (es.foldl (fun d e => e.write d) d).lineId = (target.lineId texts).or d.lineId := by
  induction es generalizing d with
  | nil => exact absurd rfl hnil
  | cons e es ih =>
    have hfirst : (e.write d).lineId = (target.lineId texts).or d.lineId := by
      rw [Entry.write, CheckoutLineData.lineId_write, e.lineId_address, h e List.mem_cons_self]
    rw [List.foldl_cons]
    by_cases hes : es = []
    · rw [hes]
      exact hfirst
    · rw [ih (fun e' he' => h e' (List.mem_cons_of_mem _ he')) hes, hfirst]
      cases target.lineId texts <;> rfl

theorem variantId_foldl {es : List (Entry texts linesInfo)} {target : Target}
    (hnodup : (linesInfo.map (·.pk)).Nodup) (h : ∀ e ∈ es, e.target = target) (hnil : es ≠ [])
    (d : CheckoutLineData) :
    (es.foldl (fun d e => e.write d) d).variantId = target.variantId linesInfo := by
  induction es generalizing d with
  | nil => exact absurd rfl hnil
  | cons e es ih =>
    rw [List.foldl_cons]
    by_cases hes : es = []
    · rw [hes, List.foldl_nil, Entry.write, CheckoutLineData.variantId_write,
        e.variantId_address hnodup, h e List.mem_cons_self]
    · exact ih (fun e' he' => h e' (List.mem_cons_of_mem _ he')) hes _

theorem filter_ne_nil {target : Target} (h : target ∈ sharedTargets es) :
    es.filter (·.target = target) ≠ [] := by
  obtain ⟨⟨e, he, rfl⟩, -⟩ := mem_sharedTargets.mp h
  exact List.ne_nil_of_mem (List.mem_filter.mpr ⟨he, decide_eq_true rfl⟩)

/-- The quantity of line data is what is asked for their target. -/
@[simp] theorem quantity_dataFor (target : Target) :
    (dataFor es target).quantity = asked (es.map Entry.ask) target := by
  rw [dataFor, quantity_foldl, asked, sumIf_map, sumIf]
  exact zero_add _

@[simp] theorem quantityToUpdate_dataFor (target : Target) :
    (dataFor es target).quantityToUpdate = given (es.map Entry.ask) target := by
  rw [dataFor, quantityToUpdate_foldl, given, List.any_filter, List.any_map]
  rfl

theorem lineId_dataFor {target : Target} (h : target ∈ sharedTargets es) :
    (dataFor es target).lineId = target.lineId texts := by
  rw [dataFor, lineId_foldl (fun e he => of_decide_eq_true (List.mem_filter.mp he).2)
    (filter_ne_nil h)]
  exact Option.or_none

theorem variantId_dataFor (hnodup : (linesInfo.map (·.pk)).Nodup) {target : Target}
    (h : target ∈ sharedTargets es) :
    (dataFor es target).variantId = target.variantId linesInfo :=
  variantId_foldl hnodup (fun _ he => of_decide_eq_true (List.mem_filter.mp he).2)
    (filter_ne_nil h) {}

end Data

end CartLines

end Aixinwu
