import Aixinwu.Checkout.CartLines

/-!
# Writing a cart

`add_variants_to_checkout` of `saleor/checkout/utils.py` goes through the line data: those for a line
of the checkout change it or delete it, the others make a new line. Then the rows are deleted,
updated and created, and what was created or changed is reserved.

The loop works on the instances of the lines. What it leaves of a line, and how often the line then
stands in the lists, depends on the line data for that line only (`touched_loop`). The line data that a
request is grouped into are one for each line at most, so that the cart after the request can be read
off the inputs (`Follows`).

## What is a parameter

The reservations and what reserving does to them. The keys of new lines are random; they are different
from each other and from those of the lines that are there.

## Main definitions

* `addVariantsToCheckout`
* `Follows` — the cart after a request, from what its inputs ask for

## Main results

* `touched_loop` — what the loop leaves of a line
* `follows_of_addVariantsToCheckout`
-/

namespace Aixinwu

namespace CartLines

open Nodes (Texts)

/-! ### The lists -/

/-- The instances of the lines, and the lists of them that the loop fills. -/
structure Pending where
  objects : Cart
  toCreate : List CheckoutLine := []
  toUpdate : List ℕ := []
  toDelete : List ℕ := []

/-- Keys for new lines of a cart. -/
structure FreshKeys (cart : Cart) where
  key : ℕ → ℕ
  fresh : ∀ i, ∀ line ∈ cart, line.pk ≠ key i
  injective : Function.Injective key

namespace CheckoutLineData

variable (d : CheckoutLineData)

/-- There is a quantity to set. -/
def setsQuantity : Bool := d.quantityToUpdate && decide (0 < d.quantity)

/-- The line is to go. -/
def deletes : Bool := d.quantityToUpdate && decide (d.quantity ≤ 0)

/-- There is a price to set, for a line that does not go. -/
def setsPrice (deleted : Bool) : Bool := d.customPriceToUpdate && !deleted

/-- A line with the metadata, if there are any. -/
def storeMetadata (line : CheckoutLine) : CheckoutLine :=
  match d.metadataList with
  | some (item :: items) => line.storeValueInMetadata (item :: items)
  | _ => line

/-- What line data make of their line. -/
def change (replace deleted : Bool) (line : CheckoutLine) : CheckoutLine :=
  let line := d.storeMetadata line
  let line := if d.setsQuantity then
      { line with quantity := if replace then d.quantity else line.quantity + d.quantity }
    else line
  if d.setsPrice deleted then { line with priceOverride := d.customPrice } else line

/-- The line that line data make. -/
def create (pk variant : ℕ) : CheckoutLine :=
  d.storeMetadata { pk := pk, variant := variant, quantity := d.quantity
                    priceOverride := d.customPrice }

end CheckoutLineData

variable (texts : Texts) (variants : List ℕ) (key : ℕ → ℕ) (replace : Bool)

/-- `variants_map[variant_id]`. -/
def variantsMap (variantId : String) : Option ℕ :=
  variants.reverse.find? fun v => toString v = variantId

/-- `_append_line_to_update`. -/
def appendLineToUpdate (d : CheckoutLineData) (line : CheckoutLine) (p : Pending) : Pending :=
  let deleted := decide (line.pk ∈ p.toDelete)
  { p with
    objects := p.objects.save (d.change replace deleted line)
    toUpdate := p.toUpdate ++ (if d.setsQuantity then [line.pk] else [])
      ++ (if d.setsPrice deleted then [line.pk] else []) }

/-- `_append_line_to_delete`. -/
def appendLineToDelete (d : CheckoutLineData) (line : CheckoutLine) (p : Pending) : Pending :=
  { p with toDelete := p.toDelete ++ if d.deletes then [line.pk] else [] }

/-- `_append_line_to_create`, for line data without a line. -/
def appendLineToCreate (variant : ℕ) (d : CheckoutLineData) (p : Pending) : Pending :=
  { p with toCreate := p.toCreate ++
      if 0 < d.quantity then [d.create (key p.toCreate.length) variant] else [] }

/-- `lines_by_id.get(line_id)`. -/
def lineOf (cart : Cart) (d : CheckoutLineData) : Option CheckoutLine :=
  d.lineId.bind fun l => cart.rows.find? fun line => texts.str line.pk = l

/-- The loop over the line data. -/
def loop (p : Pending) : List CheckoutLineData → Except Failure Pending
  | [] => .ok p
  | d :: data =>
    match lineOf texts p.objects d with
    | some line =>
      loop (appendLineToDelete d line (appendLineToUpdate replace d line p)) data
    | none =>
      match d.variantId.bind (variantsMap variants) with
      | none => .error .keyError
      | some variant => loop (appendLineToCreate key variant d p) data

/-- The fields of an instance that are saved, on a row. -/
def setFields (m row : CheckoutLine) : CheckoutLine :=
  { row with quantity := m.quantity, priceOverride := m.priceOverride, metadata := m.metadata }

/-- The instances of the lines to update. -/
def Pending.updated (p : Pending) : List CheckoutLine := p.toUpdate.filterMap p.objects.find?

/-- The rows without those that go, and with the others updated. -/
def Pending.keep (p : Pending) (cart : Cart) : Cart :=
  (cart.delete fun line => decide (line.pk ∈ p.toDelete)).bulkUpdate p.updated setFields
    fun _ _ => rfl

/-- The rows are deleted, updated and created. -/
def Pending.write (p : Pending) (cart : Cart) : Except Failure Cart :=
  match (p.keep cart).insertAll p.toCreate with
  | none => .error .integrityError
  | some cart => .ok cart

/-- The lines to reserve. -/
def Pending.toReserve (p : Pending) : List CheckoutLine := p.toCreate ++ p.updated

/-- The lines whose reservations are to last longer: those that are in no list. -/
def Pending.linesToUpdateReservationTime (p : Pending) (cart : Cart) : List ℕ :=
  (cart.rows.map (·.pk)).filter fun k =>
    k ∉ p.toReserve.map (·.pk) ++ p.toDelete

/-- What deleting lines does to reservations, and what reserving does. -/
structure Reserver (σ ε : Type) where
  release : List ℕ → σ → σ
  reserve : ℤ → List CheckoutLine → List ℕ → σ → Except ε σ

variable {σ ε : Type} (reserver : Reserver σ ε)

/-- `add_variants_to_checkout`: the lines and the reservations after it. -/
def addVariantsToCheckout (cart : Cart) (data : List CheckoutLineData)
    (reservationLength : Option ℤ) (s : σ) : Except (Failure ⊕ ε) (Cart × σ) :=
  match loop texts variants key replace { objects := cart } data with
  | .error e => .error (.inl e)
  | .ok p =>
    match p.write cart with
    | .error e => .error (.inl e)
    | .ok lines =>
      let s := reserver.release p.toDelete s
      match reservationLength.filter (· ≠ 0), p.toReserve with
      | none, _ | _, [] => .ok (lines, s)
      | some length, toReserve =>
        match reserver.reserve length toReserve (p.linesToUpdateReservationTime cart) s with
        | .error e => .error (.inr e)
        | .ok s => .ok (lines, s)

/-! ### What the loop leaves of a line -/

/-- A line, and how often it is in the lists. -/
structure Touched where
  line : CheckoutLine
  updates : ℕ := 0
  deletes : ℕ := 0

/-- What line data do to their line. -/
def Touched.step (t : Touched) (d : CheckoutLineData) : Touched where
  line := d.change replace (decide (0 < t.deletes)) t.line
  updates := t.updates + (if d.setsQuantity then 1 else 0)
    + (if d.setsPrice (decide (0 < t.deletes)) then 1 else 0)
  deletes := t.deletes + if d.deletes then 1 else 0

/-- A line of the checkout while the loop goes on. -/
def Pending.touched (p : Pending) (k : ℕ) : Option Touched :=
  (p.objects.find? k).map fun line => ⟨line, p.toUpdate.count k, p.toDelete.count k⟩

/-- Line data are for the line with a key. -/
def names (k : ℕ) (d : CheckoutLineData) : Bool := decide (d.lineId = some (texts.str k))

namespace CheckoutLineData

variable (d : CheckoutLineData) (line : CheckoutLine) (deleted : Bool)

@[simp] theorem pk_storeMetadata : (d.storeMetadata line).pk = line.pk := by
  rw [storeMetadata]
  split <;> rfl

@[simp] theorem variant_storeMetadata : (d.storeMetadata line).variant = line.variant := by
  rw [storeMetadata]
  split <;> rfl

@[simp] theorem quantity_storeMetadata : (d.storeMetadata line).quantity = line.quantity := by
  rw [storeMetadata]
  split <;> rfl

@[simp] theorem pk_change : (d.change replace deleted line).pk = line.pk := by
  rw [change]
  split <;> split <;> simp

@[simp] theorem variant_change : (d.change replace deleted line).variant = line.variant := by
  rw [change]
  split <;> split <;> simp

theorem quantity_change : (d.change replace deleted line).quantity
    = if d.setsQuantity then (if replace then d.quantity else line.quantity + d.quantity)
      else line.quantity := by
  rw [change]
  by_cases hquantity : d.setsQuantity <;> by_cases hprice : d.setsPrice deleted <;>
    simp [hquantity, hprice]

end CheckoutLineData

section Loop

variable {texts variants key replace} {p p' : Pending} {d : CheckoutLineData} {line : CheckoutLine}

/-- The line that line data are for is the one they name. -/
theorem names_of_lineOf (h : lineOf texts p.objects d = some line) (k : ℕ) :
    names texts k d = true ↔ k = line.pk := by
  rw [lineOf, Option.bind_eq_some_iff] at h
  obtain ⟨l, hl, hfind⟩ := h
  have hstr : texts.str line.pk = l := by simpa using List.find?_some hfind
  rw [names, decide_eq_true_iff, hl, ← hstr, Option.some_inj]
  exact ⟨fun h => (str_injective h).symm, fun h => by rw [h]⟩

theorem find?_of_lineOf (h : lineOf texts p.objects d = some line) :
    p.objects.find? line.pk = some line := by
  rw [lineOf, Option.bind_eq_some_iff] at h
  obtain ⟨l, -, hfind⟩ := h
  exact Table.find?_eq_some.mpr ⟨List.mem_of_find?_eq_some hfind, rfl⟩

/-- Line data without a line name none. -/
theorem find?_of_names (h : lineOf texts p.objects d = none) {k : ℕ} (hk : names texts k d = true) :
    p.objects.find? k = none := by
  rw [names, decide_eq_true_iff] at hk
  rw [lineOf, hk, Option.bind_some, List.find?_eq_none] at h
  refine Table.find?_eq_none.mpr fun line hline hpk => h line hline ?_
  rw [← hpk]
  exact decide_eq_true rfl

/-- **A step** changes the line that the line data name, and no other. -/
theorem touched_append (h : lineOf texts p.objects d = some line) (k : ℕ) :
    (appendLineToDelete d line (appendLineToUpdate replace d line p)).touched k
      = if names texts k d then (p.touched k).map fun t => t.step replace d else p.touched k := by
  have hline := find?_of_lineOf h
  by_cases hk : k = line.pk
  · subst hk
    rw [if_pos ((names_of_lineOf h _).mpr rfl)]
    have hmem : (0 < p.toDelete.count line.pk) = (line.pk ∈ p.toDelete) :=
      propext List.count_pos_iff
    have hcount : ∀ b : Bool,
        (if b then [line.pk] else []).count line.pk = if b then 1 else 0 := by
      intro b
      cases b <;> simp
    simp only [Pending.touched, appendLineToDelete, appendLineToUpdate, Touched.step,
      Table.find?_save, pk_checkoutLine, CheckoutLineData.pk_change, hline, Option.map_some,
      List.count_append, hmem, hcount, if_true]
  · rw [if_neg fun hnames => hk ((names_of_lineOf h k).mp hnames)]
    have hcount : ∀ b : Bool, (if b then [line.pk] else []).count k = 0 := by
      intro b
      cases b <;> simp [Ne.symm hk]
    simp [Pending.touched, appendLineToDelete, appendLineToUpdate, Table.find?_save, hk, hcount]

/-- **What the loop leaves of a line** is what the line data for it make of the line. -/
theorem touched_loop {data : List CheckoutLineData}
    (h : loop texts variants key replace p data = .ok p') (k : ℕ) :
    p'.touched k = (p.touched k).map fun t =>
      (data.filter (names texts k)).foldl (fun t d => t.step replace d) t := by
  induction data generalizing p with
  | nil =>
    obtain rfl := Except.ok.inj h
    simp
  | cons d data ih =>
    rw [loop] at h
    split at h
    · rename_i line hline
      rw [ih h, touched_append hline]
      by_cases hk : names texts k d
      · simp [hk, Function.comp_def]
      · simp [hk]
    · rename_i hnone
      split at h
      · cases h
      · rename_i variant hvariant
        rw [ih h]
        by_cases hk : names texts k d
        · have hfind := find?_of_names hnone hk
          simp [Pending.touched, appendLineToCreate, hfind]
        · rw [List.filter_cons_of_neg hk]
          rfl

/-- The keys of the instances stay. -/
theorem pks_append (d : CheckoutLineData) (line : CheckoutLine) (p : Pending) :
    (appendLineToDelete d line (appendLineToUpdate replace d line p)).objects.rows.map (·.pk)
      = p.objects.rows.map (·.pk) := by
  simp only [appendLineToDelete, appendLineToUpdate, Table.save, Table.rows_map, List.map_map]
  refine List.map_congr_left fun row _ => ?_
  by_cases hpk : row.pk = line.pk <;> simp [hpk]

/-- Whether line data have a line depends on the keys only. -/
theorem isSome_lineOf (cart : Cart) (d : CheckoutLineData) : (lineOf texts cart d).isSome
    = d.lineId.any fun l => decide (l ∈ (cart.rows.map (·.pk)).map texts.str) := by
  rw [lineOf]
  cases d.lineId with
  | none => rfl
  | some l =>
    rw [Option.bind_some, Bool.eq_iff_iff, List.find?_isSome]
    simp

theorem isSome_lineOf_congr {cart cart' : Cart}
    (h : cart.rows.map (·.pk) = cart'.rows.map (·.pk)) (d : CheckoutLineData) :
    (lineOf texts cart d).isSome = (lineOf texts cart' d).isSome := by
  rw [isSome_lineOf, isSome_lineOf, h]

theorem variantsMap_eq_some {t : String} {v : ℕ} (h : variantsMap variants t = some v) :
    v ∈ variants ∧ t = toString v := by
  rw [variantsMap] at h
  have ht : toString v = t := by simpa using List.find?_some h
  exact ⟨List.mem_reverse.mp (List.mem_of_find?_eq_some h), ht.symm⟩

/-- **The lines that are created**: one for each of the line data without a line whose quantity is
positive, with the variant they have. -/
theorem loop_eq_ok {data : List CheckoutLineData} {cart : Cart}
    (hpks : p.objects.rows.map (·.pk) = cart.rows.map (·.pk))
    (h : loop texts variants key replace p data = .ok p') :
    p'.objects.rows.map (·.pk) = cart.rows.map (·.pk) ∧
    (∀ d ∈ data, (lineOf texts cart d).isSome ∨ ∃ v ∈ variants, d.variantId = some (toString v)) ∧
    ∃ created : List CheckoutLine, p'.toCreate = p.toCreate ++ created ∧
      List.Forall₂ (fun (d : CheckoutLineData) line => line.quantity = d.quantity ∧
        d.variantId = some (toString line.variant))
        (data.filter fun d => !(lineOf texts cart d).isSome && decide (0 < d.quantity)) created ∧
      created.map (·.pk) = (List.range' p.toCreate.length created.length).map key := by
  induction data generalizing p with
  | nil =>
    obtain rfl := Except.ok.inj h
    exact ⟨hpks, by simp, [], by simp, .nil, rfl⟩
  | cons d data ih =>
    rw [loop] at h
    split at h
    · rename_i line hline
      have hsome : (lineOf texts cart d).isSome := by
        rw [← isSome_lineOf_congr hpks, hline]
        rfl
      obtain ⟨hpks', hall, created, hcreated, hforall, hkeys⟩ := ih ((pks_append d line p).trans hpks) h
      refine ⟨hpks', List.forall_mem_cons.mpr ⟨Or.inl hsome, hall⟩, created, hcreated, ?_, hkeys⟩
      rw [List.filter_cons_of_neg (by simp [hsome])]
      exact hforall
    · rename_i hnone
      have hsome : (lineOf texts cart d).isSome = false := by
        rw [← isSome_lineOf_congr hpks, hnone]
        rfl
      split at h
      · cases h
      · rename_i variant hvariant
        obtain ⟨t, ht, hmap⟩ := Option.bind_eq_some_iff.mp hvariant
        obtain ⟨hmem, rfl⟩ := variantsMap_eq_some hmap
        obtain ⟨hpks', hall, created, hcreated, hforall, hkeys⟩ :=
          @ih (appendLineToCreate key variant d p) hpks h
        refine ⟨hpks', List.forall_mem_cons.mpr ⟨Or.inr ⟨variant, hmem, ht⟩, hall⟩, ?_⟩
        by_cases hpos : 0 < d.quantity
        · refine ⟨d.create (key p.toCreate.length) variant :: created, ?_, ?_, ?_⟩
          · simp [hcreated, appendLineToCreate, hpos]
          · rw [List.filter_cons_of_pos (by simp [hsome, hpos])]
            exact .cons (by simp [CheckoutLineData.create, ht]) hforall
          · rw [List.map_cons, hkeys]
            simp [appendLineToCreate, hpos, List.range'_succ, CheckoutLineData.create]
        · refine ⟨created, ?_, ?_, ?_⟩
          · simp [hcreated, appendLineToCreate, hpos]
          · rw [List.filter_cons_of_neg (by simp [hpos])]
            exact hforall
          · simp [hkeys, appendLineToCreate, hpos]

end Loop

/-! ### The rows -/

section Rows

variable {texts variants key replace} {p : Pending} {cart : Cart} {data : List CheckoutLineData}

/-- What the loop leaves of a line of the checkout. -/
def final (texts : Texts) (replace : Bool) (data : List CheckoutLineData) (line : CheckoutLine) :
    Touched :=
  (data.filter (names texts line.pk)).foldl (fun t d => t.step replace d) { line := line }

/-- The row of a line that stays. -/
def keptRow (texts : Texts) (replace : Bool) (data : List CheckoutLineData) (line : CheckoutLine) :
    CheckoutLine :=
  if 0 < (final texts replace data line).updates then
    setFields (final texts replace data line).line line
  else line

variable (h : loop texts variants key replace { objects := cart } data = .ok p)

include h

/-- The instance of a line after the loop, and the lists. -/
theorem touched_eq_final {line : CheckoutLine} (hline : line ∈ cart) :
    p.touched line.pk = some (final texts replace data line) := by
  have hfind : cart.find? line.pk = some line := Table.find?_eq_some.mpr ⟨hline, rfl⟩
  rw [touched_loop h, final]
  simp [Pending.touched, hfind]

theorem final_eq {line : CheckoutLine} (hline : line ∈ cart) :
    p.objects.find? line.pk = some (final texts replace data line).line ∧
    (final texts replace data line).updates = p.toUpdate.count line.pk ∧
    (final texts replace data line).deletes = p.toDelete.count line.pk := by
  have htouched := touched_eq_final h hline
  rw [Pending.touched, Option.map_eq_some_iff] at htouched
  obtain ⟨object, hobject, heq⟩ := htouched
  rw [← heq]
  exact ⟨hobject, rfl, rfl⟩

/-- **The rows that stay**: those of the lines that are in no list of lines to delete, with what
was saved. -/
theorem rows_keep : (p.keep cart).rows
    = (cart.rows.filter fun line => decide ((final texts replace data line).deletes = 0)).map
      (keptRow texts replace data) := by
  have hdeleted : (cart.delete fun line => decide (line.pk ∈ p.toDelete)).rows
      = cart.rows.filter fun line => !decide (line.pk ∈ p.toDelete) := rfl
  have hfilter : (cart.rows.filter fun line => !decide (line.pk ∈ p.toDelete))
      = cart.rows.filter fun line => decide ((final texts replace data line).deletes = 0) := by
    refine List.filter_congr fun line hline => ?_
    simp [(final_eq h hline).2.2, List.count_eq_zero]
  unfold Pending.keep Table.bulkUpdate
  rw [Table.rows_map, hdeleted, hfilter]
  refine List.map_congr_left fun line hmem => ?_
  have hline := List.mem_of_mem_filter hmem
  obtain ⟨hobject, hupdates, -⟩ := final_eq h hline
  rw [Pending.updated, Table.find?_filterMap_find?, pk_checkoutLine, hobject, keptRow, hupdates]
  by_cases hupdate : line.pk ∈ p.toUpdate
  · rw [if_pos hupdate, if_pos (List.count_pos_iff.mpr hupdate)]
  · rw [if_neg hupdate, if_neg fun hpos => hupdate (List.count_pos_iff.mp hpos)]

end Rows

/-! ### The cart after a request -/

section Follows

/-- The items of a variant in a cart. -/
def total (cart : Cart) (variant : ℕ) : ℤ :=
  sumIf (fun line => decide (line.variant = variant)) (·.quantity) cart.rows

/-- The quantity of a line after a request, `none` if the line is gone. -/
def quantityAfter (replace : Bool) (asks : List Ask) (line : CheckoutLine) : Option ℤ :=
  if given asks (.line line.pk) then
    if 0 < asked asks (.line line.pk) then
      some (if replace then asked asks (.line line.pk)
        else line.quantity + asked asks (.line line.pk))
    else none
  else some line.quantity

/-- What a line had and has no more: what was replaced or deleted. -/
def lost (replace : Bool) (asks : List Ask) (line : CheckoutLine) : ℤ :=
  if given asks (.line line.pk) ∧ (replace ∨ asked asks (.line line.pk) ≤ 0) then line.quantity
  else 0

/-- What the inputs bring of a variant: to each of its lines, to the line it gets, and to the lines
of the inputs' own. What is asked for less than nothing brings nothing. -/
def brought (asks : List Ask) (cart : Cart) (variant : ℕ) : ℤ :=
  sumIf (fun line : CheckoutLine => decide (line.variant = variant))
      (fun line => max (asked asks (.line line.pk)) 0) cart.rows
    + max (asked asks (.variant (toString variant))) 0
    + sumIf (fun a : Ask => decide (a.1 = .newLine (toString variant))) (fun a => max (a.2.getD 0) 0)
      asks

/-- All that the inputs ask for of a variant. -/
def askedOf (asks : List Ask) (cart : Cart) (variant : ℕ) : ℤ :=
  sumIf (fun a : Ask => decide (a.1.variantId cart.rows = some (toString variant)))
    (fun a => a.2.getD 0) asks

/-- **The cart after a request.** Every input is for a line of the cart or for a variant; the line of
an input has what is asked for it, or is gone; the others are as they were; and of each variant there
is what there was, less what was replaced or deleted, and what the inputs bring. -/
structure Follows (replace : Bool) (before after : Cart) (asks : List Ask) : Prop where
  placed : ∀ a ∈ asks, (∃ line ∈ before, a.1 = .line line.pk) ∨
    ∃ v : ℕ, a.1 = .variant (toString v) ∨ a.1 = .newLine (toString v)
  untouched : ∀ line ∈ before, (∀ a ∈ asks, a.1 ≠ .line line.pk) → line ∈ after
  quantities : ∀ line ∈ before, (after.find? line.pk).map (fun l => (l.variant, l.quantity))
    = (quantityAfter replace asks line).map fun quantity => (line.variant, quantity)
  totals : ∀ v, total after v = total before v
    - sumIf (fun line => decide (line.variant = v)) (lost replace asks) before.rows
    + brought asks before v
  nothing_lost : (∀ a ∈ asks, 0 ≤ a.2.getD 0) → ∀ v, brought asks before v = askedOf asks before v

variable {texts : Texts} {variants : List ℕ} {replace : Bool} {asks : List Ask}

theorem asked_of_not_given {target : Target} (h : given asks target = false) :
    asked asks target = 0 := by
  refine sumIf_eq_zero fun a ha htarget => ?_
  have hnone : ¬ (decide (a.1 = target) && a.2.isSome) = true := List.any_eq_false.mp h a ha
  rw [Bool.and_eq_true, not_and, Bool.not_eq_true, Option.isSome_eq_false_iff] at hnone
  rw [Option.isNone_iff_eq_none.mp (hnone htarget)]
  rfl

/-- What is asked for a target that no input is for. -/
theorem given_of_forall_ne {target : Target} (h : ∀ a ∈ asks, a.1 ≠ target) :
    given asks target = false := by
  refine List.any_eq_false.mpr fun a ha => ?_
  simp [h a ha]

/-- A line has what it had, less what is lost, and what is brought. -/
theorem getD_quantityAfter (line : CheckoutLine) : (quantityAfter replace asks line).getD 0
    = line.quantity - (lost replace asks line - max (asked asks (.line line.pk)) 0) := by
  rw [quantityAfter, lost]
  cases hgiven : given asks (.line line.pk) with
  | false =>
    rw [asked_of_not_given hgiven]
    simp
  | true =>
    by_cases hpos : 0 < asked asks (.line line.pk)
    · have hmax := max_eq_left hpos.le
      cases replace <;> simp [hpos, hmax, not_le.mpr hpos]
    · simp [hpos, not_lt.mp hpos]

/-- The lines of a variant. -/
def linesWith (cart : Cart) (variant : ℕ) : List CheckoutLine :=
  cart.rows.filter fun line => decide (line.variant = variant)

/-- The targets that have a variant: its lines, the line it gets and lines of the inputs' own. -/
theorem variantId_eq_iff {cart : Cart} {target : Target} {v : ℕ} :
    target.variantId cart.rows = some (toString v) ↔
      target ∈ (linesWith cart v).map (Target.line ·.pk) ∨
      target = .variant (toString v) ∨ target = .newLine (toString v) := by
  cases target with
  | variant t | newLine t => simp [Target.variantId]
  | line u =>
    simp only [Target.variantId, Option.map_eq_some_iff, toString_inj, linesWith, List.mem_map,
      List.mem_filter, decide_eq_true_eq, Target.line.injEq, reduceCtorEq, or_false]
    constructor
    · rintro ⟨line, hfind, hvariant⟩
      have hpk : line.pk = u := by simpa using List.find?_some hfind
      exact ⟨line, ⟨List.mem_of_find?_eq_some hfind, hvariant⟩, hpk⟩
    · rintro ⟨line, ⟨hline, hvariant⟩, rfl⟩
      refine ⟨line, Nodes.find?_eq_some_of_unique hline (decide_eq_true rfl) ?_, hvariant⟩
      exact fun other hother hpk => cart.eq_of_pk_eq hother hline (of_decide_eq_true hpk)

/-! ### From the inputs to the cart -/

variable {cart : Cart} {es : List (Entry texts cart.rows)}

/-- The line data that name a line are those for it. -/
theorem names_dataFor {target : Target} (h : target ∈ sharedTargets es) (k : ℕ) :
    names texts k (dataFor es target) = decide (target = .line k) := by
  rw [names, lineId_dataFor h, decide_eq_decide]
  cases target with
  | line u =>
    rw [Target.lineId, Option.some_inj, Target.line.injEq]
    exact ⟨str_injective, fun h => by rw [h]⟩
  | variant t | newLine t => simp [Target.lineId]

theorem lineId_write_of_isNewLine {e : Entry texts cart.rows} (h : e.target.isNewLine = true) :
    (e.write {}).lineId = none := by
  rw [Entry.write, CheckoutLineData.lineId_write, e.lineId_address, Option.or_none]
  cases htarget : e.target with
  | newLine t => rfl
  | line u | variant t =>
    rw [htarget] at h
    cases h

/-- **One of the line data names a line**, if an input is for it. -/
theorem filter_names (k : ℕ) : (Grouped.addAll {} es).data.filter (names texts k)
    = if .line k ∈ sharedTargets es then [dataFor es (.line k)] else [] := by
  have hperm := (@data_perm _ _ es).filter (names texts k)
  have hown : ((es.filter (·.target.isNewLine)).map (·.write {})).filter (names texts k) = [] := by
    refine List.filter_eq_nil_iff.mpr fun d hd => ?_
    obtain ⟨e, he, rfl⟩ := List.mem_map.mp hd
    simp [names, lineId_write_of_isNewLine (List.mem_filter.mp he).2]
  have hshared : ((sharedTargets es).map (dataFor es)).filter (names texts k)
      = ((sharedTargets es).filter (· = .line k)).map (dataFor es) := by
    rw [List.filter_map]
    refine congrArg _ (List.filter_congr fun target htarget => ?_)
    exact names_dataFor htarget k
  rw [List.filter_append, hown, List.nil_append, hshared, List.filter_eq,
    nodup_sharedTargets.count] at hperm
  split at hperm
  · rename_i hmem
    rw [if_pos hmem]
    exact List.perm_singleton.mp hperm
  · rename_i hmem
    rw [if_neg hmem]
    exact List.perm_nil.mp hperm

/-- A line that no input is for. -/
theorem forall_ne_of_not_mem {k : ℕ} (h : Target.line k ∉ sharedTargets es) :
    ∀ a ∈ es.map Entry.ask, a.1 ≠ .line k := by
  intro a ha hk
  obtain ⟨e, he, rfl⟩ := List.mem_map.mp ha
  exact h (mem_sharedTargets.mpr ⟨⟨e, he, hk⟩, rfl⟩)

theorem final_of_not_mem {line : CheckoutLine} (h : Target.line line.pk ∉ sharedTargets es) :
    final texts replace (Grouped.addAll {} es).data line = { line := line } := by
  rw [final, filter_names, if_neg h]
  rfl

theorem final_of_mem {line : CheckoutLine} (h : Target.line line.pk ∈ sharedTargets es) :
    final texts replace (Grouped.addAll {} es).data line
      = Touched.step replace { line := line } (dataFor es (.line line.pk)) := by
  rw [final, filter_names, if_pos h]
  rfl

/-- The line that stays is of the same variant. -/
theorem variant_keptRow (data : List CheckoutLineData) (line : CheckoutLine) :
    (keptRow texts replace data line).variant = line.variant := by
  rw [keptRow]
  split <;> rfl

theorem pk_keptRow (data : List CheckoutLineData) (line : CheckoutLine) :
    (keptRow texts replace data line).pk = line.pk := by
  rw [keptRow]
  split <;> rfl

/-- **The quantity that is left of a line** is what is asked for it. -/
theorem quantityAfter_eq (line : CheckoutLine) :
    (if (final texts replace (Grouped.addAll {} es).data line).deletes = 0 then
        some (keptRow texts replace (Grouped.addAll {} es).data line).quantity else none)
      = quantityAfter replace (es.map Entry.ask) line := by
  rw [keptRow, quantityAfter]
  by_cases hmem : Target.line line.pk ∈ sharedTargets es
  · rw [final_of_mem hmem, Touched.step]
    cases hgiven : given (es.map Entry.ask) (.line line.pk) with
    | false =>
      have hsets : (dataFor es (.line line.pk)).setsQuantity = false := by
        simp [CheckoutLineData.setsQuantity, hgiven]
      have hdeletes : (dataFor es (.line line.pk)).deletes = false := by
        simp [CheckoutLineData.deletes, hgiven]
      by_cases hprice : (dataFor es (.line line.pk)).setsPrice false <;>
        simp [hsets, hdeletes, hprice, setFields, CheckoutLineData.quantity_change]
    | true =>
      by_cases hpos : 0 < asked (es.map Entry.ask) (.line line.pk)
      · have hsets : (dataFor es (.line line.pk)).setsQuantity = true := by
          simp [CheckoutLineData.setsQuantity, hgiven, hpos]
        have hdeletes : (dataFor es (.line line.pk)).deletes = false := by
          simp [CheckoutLineData.deletes, hgiven, hpos]
        simp [hsets, hdeletes, setFields, CheckoutLineData.quantity_change, hpos]
      · have hdeletes : (dataFor es (.line line.pk)).deletes = true := by
          simp [CheckoutLineData.deletes, hgiven, not_lt.mp hpos]
        simp [hdeletes, hpos]
  · rw [final_of_not_mem hmem, given_of_forall_ne (forall_ne_of_not_mem hmem)]
    simp

/-- Line data without a line, with a variant. -/
def isNew (texts : Texts) (cart : Cart) (variant : ℕ) (d : CheckoutLineData) : Bool :=
  decide (d.variantId = some (toString variant)) && !(lineOf texts cart d).isSome

/-- Only positive amounts count. -/
theorem sumIf_filter_pos {ρ : Type} (p q : ρ → Bool) (f : ρ → ℤ) (l : List ρ) :
    sumIf p f (l.filter fun r => q r && decide (0 < f r))
      = sumIf (fun r => p r && q r) (fun r => max (f r) 0) l := by
  induction l with
  | nil => rfl
  | cons r l ih =>
    rw [sumIf_cons, ← ih]
    cases hq : q r with
    | false => simp [hq]
    | true =>
      by_cases hpos : 0 < f r
      · rw [List.filter_cons_of_pos (by simp [hq, hpos]), sumIf_cons, max_eq_left hpos.le]
        simp
      · rw [List.filter_cons_of_neg (by simp [hpos]), max_eq_right (not_lt.mp hpos)]
        simp

theorem isNew_write {e : Entry texts cart.rows} (h : e.target.isNewLine = true) (v : ℕ) :
    isNew texts cart v (e.write {}) = decide (e.target = .newLine (toString v)) := by
  have hline : lineOf texts cart (e.write {}) = none := by
    rw [lineOf, lineId_write_of_isNewLine h, Option.bind_none]
  rw [isNew, hline, Entry.write, CheckoutLineData.variantId_write, e.variantId_address cart.nodup]
  cases htarget : e.target with
  | newLine t => simp [Target.variantId]
  | line u | variant t =>
    rw [htarget] at h
    cases h

theorem isNew_dataFor {target : Target} (h : target ∈ sharedTargets es) (v : ℕ) :
    isNew texts cart v (dataFor es target) = decide (target = .variant (toString v)) := by
  obtain ⟨⟨e, -, rfl⟩, hnew⟩ := mem_sharedTargets.mp h
  rw [isNew, isSome_lineOf, lineId_dataFor h, variantId_dataFor cart.nodup h]
  cases htarget : e.target with
  | newLine t =>
    rw [htarget] at hnew
    cases hnew
  | variant t => simp [Target.variantId, Target.lineId]
  | line u =>
    obtain ⟨line, hline, rfl⟩ := e.exists_line htarget
    have hmem : texts.str line.pk ∈ (cart.rows.map (·.pk)).map texts.str :=
      List.mem_map_of_mem (List.mem_map_of_mem hline)
    simp only [Target.lineId, Option.any_some, hmem, decide_true]
    simp

/-- What is brought to new lines. -/
theorem sum_created {created : List CheckoutLine}
    (hcreated : List.Forall₂ (fun (d : CheckoutLineData) line => line.quantity = d.quantity ∧
        d.variantId = some (toString line.variant))
      ((Grouped.addAll {} es).data.filter fun d =>
        !(lineOf texts cart d).isSome && decide (0 < d.quantity)) created) (v : ℕ) :
    sumIf (fun line => decide (line.variant = v)) (·.quantity) created
      = max (asked (es.map Entry.ask) (.variant (toString v))) 0
        + sumIf (fun a : Ask => decide (a.1 = .newLine (toString v))) (fun a => max (a.2.getD 0) 0)
          (es.map Entry.ask) := by
  have hown : sumIf (isNew texts cart v) (fun d => max d.quantity 0)
      ((es.filter (·.target.isNewLine)).map (·.write {}))
      = sumIf (fun a : Ask => decide (a.1 = .newLine (toString v))) (fun a => max (a.2.getD 0) 0)
        (es.map Entry.ask) := by
    rw [sumIf_map, sumIf_map, sumIf_filter]
    refine sumIf_congr (fun e _ => ?_) fun e _ _ => ?_
    · cases hnew : e.target.isNewLine with
      | true =>
        rw [Function.comp_apply, isNew_write hnew, Bool.and_true]
        rfl
      | false =>
        have hne : e.target ≠ .newLine (toString v) := fun h => by
          rw [h] at hnew
          cases hnew
        rw [Bool.and_false]
        exact (decide_eq_false hne).symm
    · simp [Entry.write]
  have hshared : sumIf (isNew texts cart v) (fun d => max d.quantity 0)
      ((sharedTargets es).map (dataFor es))
      = max (asked (es.map Entry.ask) (.variant (toString v))) 0 := by
    rw [sumIf_map]
    by_cases hmem : Target.variant (toString v) ∈ sharedTargets es
    · have hsingle : ∀ target ∈ sharedTargets es,
          (isNew texts cart v ∘ dataFor es) target = true ↔ target = .variant (toString v) := by
        intro target htarget
        rw [Function.comp_apply, isNew_dataFor htarget, decide_eq_true_iff]
      rw [sumIf_eq_single nodup_sharedTargets hmem hsingle, Function.comp_apply, quantity_dataFor]
    · rw [sumIf_eq_zero fun target htarget hnew => ?_, asked_of_not_given, max_self]
      · refine given_of_forall_ne fun a ha hv => hmem ?_
        obtain ⟨e, he, rfl⟩ := List.mem_map.mp ha
        exact mem_sharedTargets.mpr ⟨⟨e, he, hv⟩, rfl⟩
      · rw [Function.comp_apply, isNew_dataFor htarget, decide_eq_true_iff] at hnew
        exact absurd (hnew ▸ htarget) hmem
  calc sumIf (fun line => decide (line.variant = v)) (·.quantity) created
      = sumIf (fun d : CheckoutLineData => decide (d.variantId = some (toString v))) (·.quantity)
          ((Grouped.addAll {} es).data.filter fun d =>
            !(lineOf texts cart d).isSome && decide (0 < d.quantity)) := by
        refine (sumIf_forall₂ hcreated (fun d line hd => ?_) fun d line hd _ => hd.1.symm).symm
        rw [hd.2, decide_eq_decide, Option.some_inj, toString_inj]
    _ = sumIf (isNew texts cart v) (fun d => max d.quantity 0) (Grouped.addAll {} es).data :=
        sumIf_filter_pos _ _ _ _
    _ = _ := by rw [sumIf_perm _ _ data_perm, sumIf_append, hown, hshared, add_comm]

/-- The rows after a request: those that stay, and the new ones. -/
theorem total_keep {p : Pending} {data : List CheckoutLineData} {key : ℕ → ℕ}
    (h : loop texts variants key replace { objects := cart } data = .ok p) (v : ℕ) :
    total (p.keep cart) v = sumIf (fun line => decide (line.variant = v))
      (fun line => if (final texts replace data line).deletes = 0 then
        (keptRow texts replace data line).quantity else 0) cart.rows := by
  rw [total, rows_keep h, sumIf_map, sumIf_filter]
  have hvariant : (fun line => decide (line.variant = v)) ∘ keptRow texts replace data
      = fun line => decide (line.variant = v) := by
    funext line
    rw [Function.comp_apply, variant_keptRow]
  rw [hvariant, ← sumIf_filter, ← sumIf_ite]
  refine sumIf_congr (fun _ _ => rfl) fun line _ _ => ?_
  simp

/-- **All that is asked for is brought**, if nothing is asked for less than nothing. -/
theorem brought_eq_askedOf {before : Cart} (h : ∀ a ∈ asks, 0 ≤ a.2.getD 0) (v : ℕ) :
    brought asks before v = askedOf asks before v := by
  have hasked : ∀ target, 0 ≤ asked asks target := fun target => sumIf_nonneg h
  have hlines : sumIf (fun line : CheckoutLine => decide (line.variant = v))
      (fun line => max (asked asks (.line line.pk)) 0) before.rows
      = sumIf (fun a : Ask => decide (a.1 ∈ (linesWith before v).map (Target.line ·.pk)))
        (fun a => a.2.getD 0) asks := by
    have hnodup : ((linesWith before v).map (Target.line ·.pk)).Nodup := by
      refine (before.nodup.of_map.filter _).map_on fun line hline line' hline' hpk => ?_
      exact before.eq_of_pk_eq (List.mem_of_mem_filter hline) (List.mem_of_mem_filter hline')
        (Target.line.inj hpk)
    rw [← sum_sumIf_key (fun a : Ask => a.1) (fun a => a.2.getD 0) hnodup asks, List.map_map, sumIf]
    refine congrArg List.sum (List.map_congr_left fun line _ => ?_)
    exact max_eq_left (hasked _)
  have hown : sumIf (fun a : Ask => decide (a.1 = .newLine (toString v)))
      (fun a => max (a.2.getD 0) 0) asks = asked asks (.newLine (toString v)) :=
    sumIf_congr (fun _ _ => rfl) fun a ha _ => max_eq_left (h a ha)
  have hsplit : askedOf asks before v
      = sumIf (fun a : Ask => (decide (a.1 ∈ (linesWith before v).map (Target.line ·.pk))
          || decide (a.1 = .variant (toString v))) || decide (a.1 = .newLine (toString v)))
        (fun a => a.2.getD 0) asks := by
    refine sumIf_congr (fun a _ => ?_) fun _ _ _ => rfl
    rw [Bool.eq_iff_iff, decide_eq_true_iff, variantId_eq_iff]
    simp [or_assoc]
  rw [brought, hlines, hown, max_eq_left (hasked _), hsplit, sumIf_or, sumIf_or]
  · rfl
  · intro a _ hline hvariant
    rw [of_decide_eq_true hvariant] at hline
    simp at hline
  · intro a _ hline hnew
    rw [of_decide_eq_true hnew] at hline
    simp at hline

/-- Every input is for a line of the cart or for a variant, if the line data are accepted. -/
theorem placed_of_forall
    (hall : ∀ d ∈ (Grouped.addAll {} es).data, (lineOf texts cart d).isSome ∨
      ∃ v ∈ variants, d.variantId = some (toString v)) :
    ∀ a ∈ es.map Entry.ask, (∃ line ∈ cart, a.1 = .line line.pk) ∨
      ∃ v : ℕ, a.1 = .variant (toString v) ∨ a.1 = .newLine (toString v) := by
  intro a ha
  obtain ⟨e, he, rfl⟩ := List.mem_map.mp ha
  rw [Entry.ask_fst]
  have hdata : ∀ {d : CheckoutLineData},
      d ∈ (es.filter (·.target.isNewLine)).map (·.write {}) ++ (sharedTargets es).map (dataFor es) →
      d.lineId = none → ∃ v ∈ variants, d.variantId = some (toString v) := by
    intro d hd hline
    refine (hall d (data_perm.mem_iff.mpr hd)).resolve_left ?_
    rw [lineOf, hline]
    exact Bool.false_ne_true
  cases htarget : e.target with
  | line u =>
    obtain ⟨line, hline, rfl⟩ := e.exists_line htarget
    exact Or.inl ⟨line, hline, rfl⟩
  | variant t =>
    have hmem : Target.variant t ∈ sharedTargets es :=
      mem_sharedTargets.mpr ⟨⟨e, he, htarget⟩, rfl⟩
    obtain ⟨v, -, hv⟩ := hdata (List.mem_append_right _ (List.mem_map_of_mem hmem))
      (lineId_dataFor hmem)
    rw [variantId_dataFor cart.nodup hmem] at hv
    exact Or.inr ⟨v, Or.inl (congrArg _ (Option.some.inj hv))⟩
  | newLine t =>
    have hnew : e.target.isNewLine = true := by
      rw [htarget]
      rfl
    have hmem : e.write {} ∈ (es.filter (·.target.isNewLine)).map (·.write {}) :=
      List.mem_map_of_mem (List.mem_filter.mpr ⟨he, hnew⟩)
    obtain ⟨v, -, hv⟩ := hdata (List.mem_append_left _ hmem) (lineId_write_of_isNewLine hnew)
    rw [Entry.write, CheckoutLineData.variantId_write, e.variantId_address cart.nodup, htarget] at hv
    exact Or.inr ⟨v, Or.inr (congrArg _ (Option.some.inj hv))⟩

/-- What is written, when it is. -/
theorem exists_of_addVariantsToCheckout {σ ε : Type} {reserver : Reserver σ ε} {key : ℕ → ℕ}
    {data : List CheckoutLineData} {reservationLength : Option ℤ} {s s' : σ} {after : Cart}
    (h : addVariantsToCheckout texts variants key replace reserver cart data reservationLength s
      = .ok (after, s')) :
    ∃ p, loop texts variants key replace { objects := cart } data = .ok p ∧
      after.rows = (p.keep cart).rows ++ p.toCreate := by
  rw [addVariantsToCheckout] at h
  split at h
  · cases h
  rename_i p hp
  refine ⟨p, hp, ?_⟩
  split at h
  · cases h
  rename_i lines hlines
  have hrows : lines.rows = (p.keep cart).rows ++ p.toCreate := by
    rw [Pending.write] at hlines
    split at hlines
    · cases hlines
    · rename_i t ht
      obtain rfl := Except.ok.inj hlines
      exact Table.insertAll_eq_some.mp ht
  have hafter : after = lines := by
    dsimp only at h
    split at h
    · exact (Prod.mk.inj (Except.ok.inj h)).1.symm
    · exact (Prod.mk.inj (Except.ok.inj h)).1.symm
    · split at h
      · cases h
      · exact (Prod.mk.inj (Except.ok.inj h)).1.symm
  rw [hafter, hrows]

/-- **What the line data of a request do**: the cart follows from what its inputs ask for. -/
theorem follows_of_data {σ ε : Type} {reserver : Reserver σ ε} {keys : FreshKeys cart}
    {reservationLength : Option ℤ} {s s' : σ} {after : Cart}
    (h : addVariantsToCheckout texts variants keys.key replace reserver cart
      (Grouped.addAll {} es).data reservationLength s = .ok (after, s')) :
    Follows replace cart after (es.map Entry.ask) := by
  obtain ⟨p, hp, hrows⟩ := exists_of_addVariantsToCheckout h
  obtain ⟨-, hall, created, hcreated, hforall, hkeys⟩ := loop_eq_ok rfl hp
  rw [List.nil_append] at hcreated
  rw [hcreated] at hrows
  have hfresh : ∀ line ∈ cart, ∀ new ∈ created, new.pk ≠ line.pk := by
    intro line hline new hnew hpk
    have hmem : new.pk ∈ created.map (·.pk) := List.mem_map_of_mem hnew
    rw [hkeys] at hmem
    obtain ⟨i, -, hi⟩ := List.mem_map.mp hmem
    exact keys.fresh i line hline (hpk.symm.trans hi.symm)
  have hkept : ∀ line ∈ cart, (final texts replace (Grouped.addAll {} es).data line).deletes = 0 →
      keptRow texts replace (Grouped.addAll {} es).data line ∈ after := by
    intro line hline hstays
    rw [Table.mem_def, hrows, rows_keep hp]
    refine List.mem_append_left _ (List.mem_map_of_mem (List.mem_filter.mpr ⟨hline, ?_⟩))
    exact decide_eq_true hstays
  refine ⟨placed_of_forall hall, fun line hline hnone => ?_, fun line hline => ?_, fun v => ?_,
    fun hnonneg v => brought_eq_askedOf hnonneg v⟩
  · -- no input is for the line
    have hmem : Target.line line.pk ∉ sharedTargets es := by
      intro hmem
      obtain ⟨⟨e, he, htarget⟩, -⟩ := mem_sharedTargets.mp hmem
      exact hnone e.ask (List.mem_map_of_mem he) htarget
    have hfinal := @final_of_not_mem texts replace cart es line hmem
    have hline' := hkept line hline (by rw [hfinal])
    rwa [keptRow, hfinal, if_neg (lt_irrefl 0)] at hline'
  · rw [← quantityAfter_eq line]
    by_cases hstays : (final texts replace (Grouped.addAll {} es).data line).deletes = 0
    · have hfind : after.find? line.pk
          = some (keptRow texts replace (Grouped.addAll {} es).data line) :=
        Table.find?_eq_some.mpr ⟨hkept line hline hstays, pk_keptRow _ line⟩
      rw [if_pos hstays, hfind, Option.map_some, Option.map_some, variant_keptRow]
    · have hnone : after.find? line.pk = none := by
        refine Table.find?_eq_none.mpr fun row hrow hpk => ?_
        rw [Table.mem_def, hrows, rows_keep hp] at hrow
        rcases List.mem_append.mp hrow with hrow | hrow
        · obtain ⟨line', hline', rfl⟩ := List.mem_map.mp hrow
          obtain ⟨hmem, hdeletes⟩ := List.mem_filter.mp hline'
          obtain rfl : line' = line := cart.eq_of_pk_eq hmem hline ((pk_keptRow _ line').symm.trans hpk)
          exact hstays (of_decide_eq_true hdeletes)
        · exact hfresh line hline row hrow hpk
      rw [if_neg hstays, hnone]
      rfl
  · have hafter : total after v = total (p.keep cart) v
        + sumIf (fun line => decide (line.variant = v)) (·.quantity) created := by
      rw [total, hrows, sumIf_append]
      rfl
    have hkeep : total (p.keep cart) v = sumIf (fun line => decide (line.variant = v))
        (fun line => line.quantity - (lost replace (es.map Entry.ask) line
          - max (asked (es.map Entry.ask) (.line line.pk)) 0)) cart.rows := by
      rw [total_keep hp]
      refine sumIf_congr (fun _ _ => rfl) fun line _ _ => ?_
      rw [← getD_quantityAfter, ← quantityAfter_eq line]
      split <;> rfl
    rw [hafter, hkeep, sum_created hforall, sumIf_sub, sumIf_sub, brought, total]
    ring

/-- **A cart after a request** to add or to update has what the inputs ask for, each for its target. -/
theorem follows_of_addVariantsToCheckout {σ ε : Type} {reserver : Reserver σ ε}
    {keys : FreshKeys cart} {reservationLength : Option ℤ} {s s' : σ} {after : Cart}
    {data : List CheckoutLineData} :
    (∀ inputs, groupLinesInputOnAdd texts cart.rows inputs = .ok data →
      addVariantsToCheckout texts variants keys.key false reserver cart data reservationLength s
        = .ok (after, s') →
      ∃ asks, List.Forall₂ (fun input (a : Ask) => input.target texts cart.rows = some a.1 ∧
        a.2 = input.quantity) inputs asks ∧ Follows false cart after asks) ∧
    (∀ inputs, Accepted texts cart.rows inputs →
      groupLinesInputDataOnUpdate texts cart.rows inputs = .ok data →
      addVariantsToCheckout texts variants keys.key true reserver cart data reservationLength s
        = .ok (after, s') →
      ∃ asks, List.Forall₂ (fun input (a : Ask) => input.target texts cart.rows = some a.1 ∧
        a.2 = input.quantity) inputs asks ∧ Follows true cart after asks) := by
  constructor
  · intro inputs hgroup hadd
    obtain ⟨g, hg, rfl⟩ := exists_of_map_eq_ok hgroup
    obtain ⟨es, hes, rfl⟩ := exists_entries_of_addLoop hg
    refine ⟨es.map Entry.ask, ?_, follows_of_data hadd⟩
    rw [List.forall₂_map_right_iff]
    exact hes.imp fun input e h => ⟨h.1, congrArg Change.quantity h.2⟩
  · intro inputs haccepted hgroup hadd
    obtain ⟨g, hg, rfl⟩ := exists_of_map_eq_ok hgroup
    obtain ⟨es, hes, rfl⟩ := exists_entries_of_updateLoop haccepted hg
    refine ⟨es.map Entry.ask, ?_, follows_of_data hadd⟩
    rw [List.forall₂_map_right_iff]
    exact hes.imp fun input e h => ⟨h.1, congrArg Change.quantity h.2⟩

end Follows

/-! ### Mugs and shirts -/

/-- Global ids of a mug, a shirt, a book and a line of mugs. -/
def shopTexts : Texts := Texts.small (fun t =>
  if t = "mug" then some ("ProductVariant", "1")
  else if t = "shirt" then some ("ProductVariant", "2")
  else if t = "book" then some ("ProductVariant", "3")
  else if t = "mugs" then some ("CheckoutLine", (Texts.small (fun _ => none) rfl).str 1)
  else none) rfl

/-- Three mugs on a line, and shirts on two lines. -/
def mugsAndShirts : Cart where
  rows := [{ pk := 1, variant := 1, quantity := 3 }, { pk := 2, variant := 2, quantity := 1 },
    { pk := 3, variant := 2, quantity := 4 }]
  nodup := by decide

/-- Keys from 100 on. -/
def fromHundred : FreshKeys mugsAndShirts where
  key i := 100 + i
  fresh i line hline := by
    have hpk : ∀ line ∈ mugsAndShirts.rows, line.pk < 100 := by decide
    have := hpk line hline
    omega
  injective i j h := by simpa using h

/-- No reservations. -/
def noReserver : Reserver Unit Unit := ⟨fun _ s => s, fun _ _ _ s => .ok s⟩

/-- What is asked to be added: mugs for the line of mugs and for one of their own, shirts, and books. -/
def moreMugs : List CheckoutLineInput :=
  [{ variantId := "mug", quantity := some 2 }, { variantId := "shirt", quantity := some 5 },
    { variantId := "book", quantity := some 2 },
    { variantId := "mug", quantity := some 1, forceNewLine := true },
    { variantId := "mug", quantity := some 1 }, { variantId := "book", quantity := some 0 }]

/-- The line data for them. -/
def moreMugsData : List CheckoutLineData :=
  [{ variantId := some "2", quantity := 5, quantityToUpdate := true },
    { variantId := some "1", quantity := 1, quantityToUpdate := true },
    { variantId := some "1", lineId := some (shopTexts.str 1), quantity := 3
      quantityToUpdate := true },
    { variantId := some "3", quantity := 2, quantityToUpdate := true }]

/-- The cart with them. -/
def withMoreMugs : Cart where
  rows := [{ pk := 1, variant := 1, quantity := 6 }, { pk := 2, variant := 2, quantity := 1 },
    { pk := 3, variant := 2, quantity := 4 }, { pk := 100, variant := 2, quantity := 5 },
    { pk := 101, variant := 1, quantity := 1 }, { pk := 102, variant := 3, quantity := 2 }]
  nodup := by decide

/-- The line of mugs is asked to have one, by its own id, and one more, by that of the mug. -/
def twoMugs : List CheckoutLineUpdateInput :=
  [{ lineId := "mugs", quantity := some 1 }, { variantId := "book", quantity := some 2 },
    { variantId := "mug", quantity := some 1 }]

/-- The cart with two mugs and two books. -/
def withTwoMugs : Cart where
  rows := [{ pk := 1, variant := 1, quantity := 2 }, { pk := 2, variant := 2, quantity := 1 },
    { pk := 3, variant := 2, quantity := 4 }, { pk := 100, variant := 3, quantity := 2 }]
  nodup := by decide

theorem accepted_twoMugs : Accepted shopTexts mugsAndShirts.rows twoMugs where
  one := by decide
  ofLine input hinput type := by
    have hids : ∀ input ∈ twoMugs,
        (shopTexts.fromGlobalId input.lineId).map Prod.snd ≠ some "" := by decide
    exact fun h => hids input hinput (by rw [h]; rfl)
  own h := by cases h

/-- Mugs are added to their line and on one of their own, and two mugs are set. -/
theorem follows_of_addVariantsToCheckout_mugs :
    (∃ asks, List.Forall₂ (fun input (a : Ask) =>
        input.target shopTexts mugsAndShirts.rows = some a.1 ∧ a.2 = input.quantity) moreMugs asks ∧
      Follows false mugsAndShirts withMoreMugs asks) ∧
    (∃ asks, List.Forall₂ (fun input (a : Ask) =>
        input.target shopTexts mugsAndShirts.rows = some a.1 ∧ a.2 = input.quantity) twoMugs asks ∧
      Follows true mugsAndShirts withTwoMugs asks) := by
  constructor
  · exact (@follows_of_addVariantsToCheckout shopTexts [1, 2, 3] mugsAndShirts Unit Unit noReserver
      fromHundred none () () withMoreMugs moreMugsData).1 moreMugs rfl rfl
  · exact (@follows_of_addVariantsToCheckout shopTexts [1, 2, 3] mugsAndShirts Unit Unit noReserver
      fromHundred none () () withTwoMugs _).2 twoMugs accepted_twoMugs rfl rfl

/-- No mug is added and the line of mugs is gone; no quantity is given for it and it stays; and two
books less than none are none. -/
theorem not_exact_mugs :
    (¬ ∀ data after, groupLinesInputOnAdd shopTexts mugsAndShirts.rows
        [{ variantId := "mug", quantity := some 0 }] = .ok data →
      addVariantsToCheckout shopTexts [1, 2, 3] fromHundred.key false noReserver mugsAndShirts data
        none () = .ok (after, ()) → ∃ line ∈ after, line.pk = 1 ∧ line.quantity = 3 + 0) ∧
    (¬ ∀ data after, groupLinesInputDataOnUpdate shopTexts mugsAndShirts.rows
        [{ lineId := "mugs" }] = .ok data →
      addVariantsToCheckout shopTexts [1, 2, 3] fromHundred.key true noReserver mugsAndShirts data
        none () = .ok (after, ()) → ∀ line ∈ after, line.pk ≠ 1) ∧
    (¬ ∀ data after, groupLinesInputOnAdd shopTexts mugsAndShirts.rows
        [{ variantId := "book", quantity := some (-2) }] = .ok data →
      addVariantsToCheckout shopTexts [1, 2, 3] fromHundred.key false noReserver mugsAndShirts data
        none () = .ok (after, ()) → total after 3 = total mugsAndShirts 3 + -2) := by
  refine ⟨fun h => ?_, fun h => ?_, fun h => ?_⟩
  · obtain ⟨line, hline, hpk, -⟩ := h _ _ rfl rfl
    have hpks : ∀ line ∈ mugsAndShirts.rows.drop 1, line.pk ≠ 1 := by decide
    exact hpks line hline hpk
  · exact h _ _ rfl rfl { pk := 1, variant := 1, quantity := 3 } List.mem_cons_self rfl
  · exact absurd (h _ mugsAndShirts rfl rfl) (by decide)

end CartLines

end Aixinwu
