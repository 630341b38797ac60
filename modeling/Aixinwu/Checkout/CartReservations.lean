import Aixinwu.Checkout.CartUpdate
import Aixinwu.Warehouse.ReservationOutcomes

/-!
# The reservations of a cart

With a reservation length, `add_variants_to_checkout` has the lines it creates or changes reserved,
and the reservations of the other lines last longer. Its lists are what is reserved, so that it
matters how often a line is in them. Line data with a quantity and a price append their line to the
lines to update twice, and then it has two rows for the same stock. Line data with a quantity of
zero and a price append it to the lines to update and to those to delete, and then its rows are for
a line that is gone.

Where nothing is to be reserved, or preorders only, the time of the other lines is not set anew. And
the reservations of a line that is deleted stay, without a line.

## What is a parameter

The tables of stocks and preorders, and the keys of new lines. Rows that refer to a line that is
gone are found when the transaction ends.

## Main definitions

* `CartCall` — the arguments, with what callers see to
* `Holdings` — the tables
* `KeepsPromise` — what reserving should do
* `Sound` — when it does

## Main results

* `run_eq` — a call, by what is reserved
* `keepsPromise_iff`
-/

namespace Aixinwu

namespace CartLines

open Nodes (Texts)
open Stocks (ProductVariant Channel ReserveCall AllocateError Reservation Reservations
  reserveStocksAndPreorders heldBy)

/-! ### The tables -/

/-- The tables, and the lines that are gone from that of the lines. -/
structure Holdings where
  db : Stocks.Db
  gone : List ℕ := []

/-- `on_delete=SET_NULL`: the rows of lines that go stay without one. -/
def unlink (t : Reservations) (lines : List ℕ) : Reservations where
  rows := t.rows.map fun r =>
    if r.checkoutLine.any (· ∈ lines) then { r with checkoutLine := none } else r
  unique := by
    have hkeys : (t.rows.map fun r =>
        if r.checkoutLine.any (· ∈ lines) then { r with checkoutLine := none } else r).filterMap
          Reservation.key?
        = (t.rows.filter fun r => !r.checkoutLine.any (· ∈ lines)).filterMap Reservation.key? := by
      rw [List.filterMap_map, List.filterMap_filter]
      refine List.filterMap_congr fun r _ => ?_
      cases hgone : r.checkoutLine.any (· ∈ lines) <;> simp [hgone, Reservation.key?]
    rw [hkeys]
    exact (List.filter_sublist.filterMap Reservation.key?).nodup t.unique

namespace Holdings

/-- What deleting lines does. The reservations of preorders go with their lines. -/
def release (lines : List ℕ) (s : Holdings) : Holdings where
  db := { s.db with
    reservations := unlink s.db.reservations lines
    preorderReservations := s.db.preorderReservations.delete fun r =>
      decide (r.checkoutLine ∈ lines) }
  gone := s.gone ++ lines

/-- A row refers to a line that is gone. -/
def dangling (s : Holdings) : Bool :=
  (s.db.reservations.rows.any fun r => r.checkoutLine.any (· ∈ s.gone))
    || s.db.preorderReservations.rows.any fun r => decide (r.checkoutLine ∈ s.gone)

end Holdings

/-! ### The call -/

/-- The arguments of `add_variants_to_checkout` with `replace_reservations`, and what its callers
see to: lines have items, and the variants are those of the line data. -/
structure CartCall (texts : Texts) where
  cart : Cart
  keys : FreshKeys cart
  data : List CheckoutLineData
  variants : List ProductVariant
  fetch : ℕ → ProductVariant
  replace : Bool
  countryCode : String
  channel : Channel
  reservationLength : ℤ
  now : Time
  quantities : ∀ line ∈ cart, 0 < line.quantity
  positive : 0 < reservationLength
  pk_fetch : ∀ v, (fetch v).pk = v
  fetched : ∀ v ∈ variants, fetch v.pk = v
  covered : ∀ d ∈ data, (∃ line, lineOf texts cart d = some line ∧ fetch line.variant ∈ variants) ∨
    lineOf texts cart d = none ∧ ∃ v ∈ variants, d.variantId = some (toString v.pk)

namespace CartCall

variable {texts : Texts} (a : CartCall texts)

/-- A line with its variant as fetched. -/
def fetchLine (line : CheckoutLine) : Stocks.CheckoutLine where
  pk := line.pk
  variant := a.fetch line.variant
  quantity := line.quantity.toNat

/-- The call of `reserve_stocks_and_preorders`, for lines with items whose instances are one for
each line. -/
def reserveCall (length : ℤ) (lines : List Stocks.CheckoutLine)
    (linesToUpdateReservationTime : List ℕ) : Option ReserveCall :=
  if h : ((∀ l ∈ lines, ∀ l' ∈ lines, l.pk = l'.pk → l = l') ∧ ∀ l ∈ lines, 0 < l.quantity) ∧
      0 < length then
    some {
      checkoutLines := lines
      linesToUpdateReservationTime := linesToUpdateReservationTime
      variants := a.variants
      countryCode := a.countryCode
      channel := a.channel
      lengthInMinutes := length
      now := a.now
      same := h.1.1
      quantities := h.1.2
      positive := h.2 }
  else none

/-- Deleting lines and reserving. The transaction of reserving ends with it. -/
def reserver : Reserver Holdings AllocateError where
  release := Holdings.release
  reserve length lines untouched s :=
    match a.reserveCall length (lines.map a.fetchLine) untouched with
    | none => .error .assertionError
    | some c =>
      match reserveStocksAndPreorders c s.db with
      | .error e => .error e
      | .ok db => if { s with db }.dangling then .error .integrityError else .ok { s with db }

/-- `add_variants_to_checkout`. -/
def run (db : Stocks.Db) : Except (Failure ⊕ AllocateError) (Cart × Holdings) :=
  addVariantsToCheckout texts (a.variants.map (·.pk)) a.keys.key a.replace a.reserver a.cart a.data
    (some a.reservationLength) { db := db }

/-! ### What is reserved -/

/-- How often a line is in the list of lines to update. -/
def updates (line : CheckoutLine) : ℕ := (final texts a.replace a.data line).updates

/-- How often a line is in the list of lines to delete. -/
def deletes (line : CheckoutLine) : ℕ := (final texts a.replace a.data line).deletes

/-- The new lines, with keys from the one on. -/
def newLinesFrom (i : ℕ) : List CheckoutLineData → List CheckoutLine
  | [] => []
  | d :: data =>
    match lineOf texts a.cart d, d.variantId.bind (variantsMap (a.variants.map (·.pk))) with
    | none, some v =>
      if 0 < d.quantity then d.create (a.keys.key i) v :: newLinesFrom (i + 1) data
      else newLinesFrom i data
    | _, _ => newLinesFrom i data

def newLines : List CheckoutLine := a.newLinesFrom 0 a.data

/-- The lines of the checkout that are changed, as they are then. -/
def changedLines : List CheckoutLine :=
  (a.cart.rows.filter fun line => decide (0 < a.updates line)).map fun line =>
    (final texts a.replace a.data line).line

/-- The lines that are neither changed nor deleted. -/
def untouchedLines : List ℕ :=
  (a.cart.rows.filter fun line => decide (a.updates line = 0 ∧ a.deletes line = 0)).map (·.pk)

variable {a}

/-! ### New lines and changed lines -/

/-- The line data of a call have a line, or a variant for a new one. -/
theorem covered_iff {d : CheckoutLineData} (hd : d ∈ a.data) :
    (lineOf texts a.cart d).isSome ∨
      ∃ v ∈ a.variants, d.variantId.bind (variantsMap (a.variants.map (·.pk))) = some v.pk := by
  rcases a.covered d hd with ⟨line, hline, -⟩ | ⟨-, v, hv, hvariant⟩
  · exact .inl (hline ▸ rfl)
  · right
    rw [hvariant, Option.bind_some]
    have hsome : ((a.variants.map (·.pk)).reverse.find?
        fun k => decide (toString k = toString v.pk)).isSome :=
      List.find?_isSome.mpr
        ⟨v.pk, List.mem_reverse.mpr (List.mem_map_of_mem hv), decide_eq_true rfl⟩
    obtain ⟨k, hk⟩ := Option.isSome_iff_exists.mp hsome
    have heq : toString k = toString v.pk := by simpa using List.find?_some hk
    exact ⟨v, hv, hk.trans (congrArg some (toString_inj.mp heq))⟩

/-- **The loop comes to an end**, with the new lines. -/
theorem exists_loop {p : Pending} (hpks : p.objects.rows.map (·.pk) = a.cart.rows.map (·.pk))
    {data : List CheckoutLineData} (hdata : ∀ d ∈ data, d ∈ a.data) :
    ∃ p', loop texts (a.variants.map (·.pk)) a.keys.key a.replace p data = .ok p' ∧
      p'.toCreate = p.toCreate ++ a.newLinesFrom p.toCreate.length data := by
  induction data generalizing p with
  | nil => exact ⟨p, rfl, (List.append_nil _).symm⟩
  | cons d data ih =>
    obtain ⟨hd, hdata⟩ := List.forall_mem_cons.mp hdata
    have hsome := @isSome_lineOf_congr texts _ _ hpks d
    rw [loop, newLinesFrom]
    cases hline : lineOf texts p.objects d with
    | some line =>
      rw [hline] at hsome
      obtain ⟨line', hline'⟩ := Option.isSome_iff_exists.mp hsome.symm
      rw [hline']
      exact ih ((pks_append d line p).trans hpks) hdata
    | none =>
      rw [hline] at hsome
      have hnone : lineOf texts a.cart d = none :=
        Option.not_isSome_iff_eq_none.mp fun h => Bool.false_ne_true (hsome.trans h)
      obtain ⟨v, -, hv⟩ := (covered_iff hd).resolve_left (by rw [hnone]; exact Bool.false_ne_true)
      rw [hnone, hv]
      dsimp only
      obtain ⟨p', hp', hcreate⟩ := @ih (appendLineToCreate a.keys.key v.pk d p) hpks hdata
      refine ⟨p', hp', hcreate.trans ?_⟩
      by_cases hpos : 0 < d.quantity
      · simp [appendLineToCreate, hpos]
      · simp [appendLineToCreate, hpos]

theorem pks_newLinesFrom (i : ℕ) (data : List CheckoutLineData) :
    (a.newLinesFrom i data).map (·.pk)
      = (List.range' i (a.newLinesFrom i data).length).map a.keys.key := by
  induction data generalizing i with
  | nil => rfl
  | cons d data ih =>
    rw [newLinesFrom]
    split
    · split
      · rw [List.map_cons, ih, List.length_cons, List.range'_succ, List.map_cons]
        simp [CheckoutLineData.create]
      · exact ih i
    · exact ih i

/-- A new line has items, and a variant of the call. -/
theorem of_mem_newLinesFrom {i : ℕ} {data : List CheckoutLineData} {line : CheckoutLine}
    (h : line ∈ a.newLinesFrom i data) : 0 < line.quantity ∧ a.fetch line.variant ∈ a.variants := by
  induction data generalizing i with
  | nil => cases h
  | cons d data ih =>
    rw [newLinesFrom] at h
    split at h
    · rename_i v _ hv
      split at h
      · rename_i hpos
        rcases List.mem_cons.mp h with rfl | h
        · refine ⟨by simpa [CheckoutLineData.create] using hpos, ?_⟩
          obtain ⟨t, -, hmap⟩ := Option.bind_eq_some_iff.mp hv
          obtain ⟨variant, hvariant, rfl⟩ := List.mem_map.mp (variantsMap_eq_some hmap).1
          have hfetch : a.fetch variant.pk = variant := a.fetched variant hvariant
          simpa [CheckoutLineData.create, hfetch] using hvariant
        · exact ih h
      · exact ih h
    · exact ih h

/-- What is left of a line is the line, with items. -/
theorem final_line {line : CheckoutLine} (hpos : 0 < line.quantity) :
    (final texts a.replace a.data line).line.pk = line.pk ∧
    (final texts a.replace a.data line).line.variant = line.variant ∧
    0 < (final texts a.replace a.data line).line.quantity := by
  have hfold : ∀ (data : List CheckoutLineData) (t : Touched), 0 < t.line.quantity →
      (data.foldl (fun t d => t.step a.replace d) t).line.pk = t.line.pk ∧
      (data.foldl (fun t d => t.step a.replace d) t).line.variant = t.line.variant ∧
      0 < (data.foldl (fun t d => t.step a.replace d) t).line.quantity := by
    intro data
    induction data with
    | nil => exact fun t ht => ⟨rfl, rfl, ht⟩
    | cons d data ih =>
      intro t ht
      have hstep : 0 < (t.step a.replace d).line.quantity := by
        rw [Touched.step, CheckoutLineData.quantity_change]
        split
        · rename_i hsets
          have hquantity := of_decide_eq_true (Bool.and_eq_true_iff.mp hsets).2
          split
          · exact hquantity
          · exact add_pos ht hquantity
        · exact ht
      obtain ⟨hpk, hvariant, hpos⟩ := ih (t.step a.replace d) hstep
      rw [List.foldl_cons]
      exact ⟨hpk.trans (CheckoutLineData.pk_change _ _ _ _),
        hvariant.trans (CheckoutLineData.variant_change _ _ _ _), hpos⟩
  exact hfold _ _ hpos

theorem lineOf_of_names {d : CheckoutLineData} {line : CheckoutLine} (hline : line ∈ a.cart)
    (h : names texts line.pk d = true) : lineOf texts a.cart d = some line := by
  rw [names, decide_eq_true_iff] at h
  rw [lineOf, h, Option.bind_some]
  refine Nodes.find?_eq_some_of_unique hline (decide_eq_true rfl) fun other hother hpk => ?_
  exact a.cart.eq_of_pk_eq hother hline (str_injective (of_decide_eq_true hpk))

/-- A line that is in a list has line data, and its variant is one of the call. -/
theorem variant_mem_of_touched {line : CheckoutLine} (hline : line ∈ a.cart)
    (h : 0 < a.updates line) : a.fetch line.variant ∈ a.variants := by
  obtain ⟨d, hd⟩ : ∃ d, d ∈ a.data.filter (names texts line.pk) := by
    refine List.exists_mem_of_ne_nil _ fun hnil => ?_
    rw [updates, final, hnil] at h
    exact lt_irrefl 0 h
  obtain ⟨hmem, hnames⟩ := List.mem_filter.mp hd
  have hlineOf := lineOf_of_names hline hnames
  rcases a.covered d hmem with ⟨line', hline', hvariant⟩ | ⟨hnone, -⟩
  · obtain rfl := Option.some.inj (hlineOf.symm.trans hline')
    exact hvariant
  · rw [hlineOf] at hnone
    cases hnone

/-! ### The call of reserving -/

variable (a)

/-- The lists when the loop is done. -/
def pending : Pending :=
  match loop texts (a.variants.map (·.pk)) a.keys.key a.replace { objects := a.cart } a.data with
  | .ok p => p
  | .error _ => { objects := a.cart }

/-- The lines that are deleted. -/
def deletedLines : List ℕ := (a.cart.rows.filter fun line => decide (0 < a.deletes line)).map (·.pk)

variable {a}

theorem loop_eq :
    loop texts (a.variants.map (·.pk)) a.keys.key a.replace { objects := a.cart } a.data
      = .ok a.pending := by
  obtain ⟨p, hp, -⟩ := @exists_loop _ a { objects := a.cart } rfl a.data fun _ hd => hd
  rw [pending, hp]

theorem toCreate_pending : a.pending.toCreate = a.newLines := by
  obtain ⟨p, hp, hcreate⟩ := @exists_loop _ a { objects := a.cart } rfl a.data fun _ hd => hd
  rw [pending, hp]
  exact hcreate

theorem find?_pending {k : ℕ} (h : a.cart.find? k = none) : a.pending.objects.find? k = none := by
  have htouched := touched_loop (@loop_eq _ a) k
  rw [Pending.touched, Pending.touched, h, Option.map_none, Option.map_none,
    Option.map_eq_none_iff] at htouched
  exact htouched

/-- **The lines to update** are those that are changed, as they are then. -/
theorem mem_updated {line' : CheckoutLine} :
    line' ∈ a.pending.updated ↔ line' ∈ a.changedLines := by
  rw [Pending.updated, List.mem_filterMap, changedLines, List.mem_map]
  constructor
  · rintro ⟨k, hk, hfind⟩
    cases hline : a.cart.find? k with
    | none =>
      rw [find?_pending hline] at hfind
      cases hfind
    | some line =>
      obtain ⟨hmem, rfl⟩ := Table.find?_eq_some.mp hline
      obtain ⟨hobject, hupdates, -⟩ := final_eq loop_eq hmem
      refine ⟨line, List.mem_filter.mpr ⟨hmem, decide_eq_true ?_⟩, ?_⟩
      · rw [updates, hupdates]
        exact List.count_pos_iff.mpr hk
      · exact Option.some.inj (hobject.symm.trans hfind)
  · rintro ⟨line, hline, rfl⟩
    obtain ⟨hmem, hpos⟩ := List.mem_filter.mp hline
    obtain ⟨hobject, hupdates, -⟩ := final_eq loop_eq hmem
    have hpos := of_decide_eq_true hpos
    rw [updates, hupdates] at hpos
    exact ⟨line.pk, List.count_pos_iff.mp hpos, hobject⟩

theorem toDelete_subset {p p' : Pending} {data : List CheckoutLineData}
    (h : loop texts (a.variants.map (·.pk)) a.keys.key a.replace p data = .ok p') {k : ℕ}
    (hk : k ∈ p'.toDelete) : k ∈ p.toDelete ∨ k ∈ p.objects.rows.map (·.pk) := by
  induction data generalizing p with
  | nil =>
    obtain rfl := Except.ok.inj h
    exact .inl hk
  | cons d data ih =>
    rw [loop] at h
    split at h
    · rename_i line hline
      have hmem : line.pk ∈ p.objects.rows.map (·.pk) := by
        rw [lineOf, Option.bind_eq_some_iff] at hline
        obtain ⟨l, -, hfind⟩ := hline
        exact List.mem_map_of_mem (List.mem_of_find?_eq_some hfind)
      rcases ih h with hdelete | hrow
      · rcases List.mem_append.mp hdelete with hdelete | hnew
        · exact .inl hdelete
        · split at hnew
          · rw [List.mem_singleton.mp hnew]
            exact .inr hmem
          · cases hnew
      · rw [pks_append] at hrow
        exact .inr hrow
    · split at h
      · cases h
      · rename_i variant _
        exact @ih (appendLineToCreate a.keys.key variant d p) h

theorem mem_toDelete {k : ℕ} : k ∈ a.pending.toDelete ↔ k ∈ a.deletedLines := by
  have hcount : ∀ line ∈ a.cart, line.pk ∈ a.pending.toDelete ↔ 0 < a.deletes line := by
    intro line hline
    rw [deletes, (final_eq loop_eq hline).2.2]
    exact List.count_pos_iff.symm
  rw [deletedLines, List.mem_map]
  constructor
  · intro hk
    obtain ⟨line, hline, rfl⟩ := List.mem_map.mp ((toDelete_subset loop_eq hk).resolve_left nofun)
    exact ⟨line, List.mem_filter.mpr ⟨hline, decide_eq_true ((hcount line hline).mp hk)⟩, rfl⟩
  · rintro ⟨line, hline, rfl⟩
    obtain ⟨hline, hpos⟩ := List.mem_filter.mp hline
    exact (hcount line hline).mpr (of_decide_eq_true hpos)

/-- **The other lines** are those that are neither changed nor deleted. -/
theorem linesToUpdateReservationTime_pending :
    a.pending.linesToUpdateReservationTime a.cart = a.untouchedLines := by
  rw [Pending.linesToUpdateReservationTime, untouchedLines, List.filter_map]
  refine congrArg _ (List.filter_congr fun line hline => ?_)
  obtain ⟨hobject, hupdates, hdeletes⟩ := final_eq (@loop_eq _ a) hline
  rw [Function.comp_apply, decide_eq_decide, List.mem_append, not_or, updates, deletes, hupdates,
    hdeletes, List.count_eq_zero, List.count_eq_zero]
  refine and_congr_left fun _ => not_congr ?_
  rw [Pending.toReserve, List.map_append, List.mem_append]
  constructor
  · rintro (hnew | hupdated)
    · rw [toCreate_pending, newLines, pks_newLinesFrom] at hnew
      obtain ⟨i, -, hi⟩ := List.mem_map.mp hnew
      exact absurd hi.symm (a.keys.fresh i line hline)
    · obtain ⟨line', hline', hpk⟩ := List.mem_map.mp hupdated
      obtain ⟨k, hk, hfind⟩ := List.mem_filterMap.mp hline'
      rwa [← hpk, ← pk_checkoutLine, (Table.find?_eq_some.mp hfind).2]
  · intro hmem
    refine .inr (List.mem_map.mpr ⟨_, List.mem_filterMap.mpr ⟨line.pk, hmem, hobject⟩, ?_⟩)
    exact (Table.find?_eq_some.mp hobject).2

/-- The lines that are passed are lines with items, one for each key. -/
theorem mem_toReserve {line : CheckoutLine} :
    line ∈ a.pending.toReserve ↔ line ∈ a.newLines ++ a.changedLines := by
  rw [Pending.toReserve, List.mem_append, List.mem_append, toCreate_pending, mem_updated]

theorem of_mem_changedLines {line' : CheckoutLine} (h : line' ∈ a.changedLines) :
    ∃ line ∈ a.cart, 0 < a.updates line ∧ line' = (final texts a.replace a.data line).line ∧
      line'.pk = line.pk ∧ line'.variant = line.variant ∧ 0 < line'.quantity := by
  obtain ⟨line, hline, rfl⟩ := List.mem_map.mp h
  obtain ⟨hmem, hpos⟩ := List.mem_filter.mp hline
  exact ⟨line, hmem, of_decide_eq_true hpos, rfl, final_line (a.quantities line hmem)⟩

theorem nodup_newLines : (a.newLines.map (·.pk)).Nodup := by
  rw [newLines, pks_newLinesFrom]
  exact List.Nodup.map a.keys.injective List.nodup_range'

theorem pk_newLines {line : CheckoutLine} (h : line ∈ a.newLines) :
    ∀ old ∈ a.cart, old.pk ≠ line.pk := by
  intro old hold
  have hpk : line.pk ∈ a.newLines.map (·.pk) := List.mem_map_of_mem h
  rw [newLines, pks_newLinesFrom] at hpk
  obtain ⟨i, -, hi⟩ := List.mem_map.mp hpk
  rw [← hi]
  exact a.keys.fresh i old hold

/-- A line is of the lines that are passed if its key is. -/
theorem eq_of_pk_eq {line line' : CheckoutLine} (h : line ∈ a.newLines ++ a.changedLines)
    (h' : line' ∈ a.newLines ++ a.changedLines) (hpk : line.pk = line'.pk) : line = line' := by
  rcases List.mem_append.mp h with hnew | hold <;> rcases List.mem_append.mp h' with hnew' | hold'
  · exact List.inj_on_of_nodup_map nodup_newLines hnew hnew' hpk
  · obtain ⟨old, hcart, -, -, hold, -⟩ := of_mem_changedLines hold'
    exact absurd (hold.symm.trans hpk.symm) (pk_newLines hnew old hcart)
  · obtain ⟨old, hcart, -, -, hold, -⟩ := of_mem_changedLines hold
    exact absurd (hold.symm.trans hpk) (pk_newLines hnew' old hcart)
  · obtain ⟨old, hcart, -, rfl, hold, -⟩ := of_mem_changedLines hold
    obtain ⟨old', hcart', -, rfl, hold', -⟩ := of_mem_changedLines hold'
    have heq : old = old' := a.cart.eq_of_pk_eq hcart hcart' (hold.symm.trans (hpk.trans hold'))
    rw [heq]

theorem quantity_pos {line : CheckoutLine} (h : line ∈ a.newLines ++ a.changedLines) :
    0 < line.quantity := by
  rcases List.mem_append.mp h with hnew | hold
  · exact (of_mem_newLinesFrom hnew).1
  · obtain ⟨-, -, -, -, -, -, hpos⟩ := of_mem_changedLines hold
    exact hpos

theorem variant_mem {line : CheckoutLine} (h : line ∈ a.newLines ++ a.changedLines) :
    a.fetch line.variant ∈ a.variants := by
  rcases List.mem_append.mp h with hnew | hold
  · exact (of_mem_newLinesFrom hnew).2
  · obtain ⟨old, hcart, hpos, -, -, hvariant, -⟩ := of_mem_changedLines hold
    rw [hvariant]
    exact variant_mem_of_touched hcart hpos

variable (a)

/-- The lines that are passed. -/
def checkoutLines : List Stocks.CheckoutLine := a.pending.toReserve.map a.fetchLine

/-- The call of `reserve_stocks_and_preorders`. -/
def call : ReserveCall where
  checkoutLines := a.checkoutLines
  linesToUpdateReservationTime := a.untouchedLines
  variants := a.variants
  countryCode := a.countryCode
  channel := a.channel
  lengthInMinutes := a.reservationLength
  now := a.now
  same := by
    intro l hl l' hl' hpk
    obtain ⟨line, hline, rfl⟩ := List.mem_map.mp hl
    obtain ⟨line', hline', rfl⟩ := List.mem_map.mp hl'
    rw [eq_of_pk_eq (mem_toReserve.mp hline) (mem_toReserve.mp hline') hpk]
  quantities := by
    intro l hl
    obtain ⟨line, hline, rfl⟩ := List.mem_map.mp hl
    have hpos := quantity_pos (mem_toReserve.mp hline)
    dsimp only [fetchLine]
    omega
  positive := a.positive

/-- The tables when the lines are deleted. -/
def released (db : Stocks.Db) : Holdings := Holdings.release a.pending.toDelete { db := db }

variable {a} {db : Stocks.Db}

theorem reserveCall_eq : a.reserveCall a.reservationLength a.checkoutLines a.untouchedLines
    = some a.call :=
  dif_pos ⟨⟨a.call.same, a.call.quantities⟩, a.positive⟩

/-- The rows can be written: the keys of new lines are new. -/
theorem exists_write : ∃ cart, a.pending.write a.cart = .ok cart := by
  have hpks : ∀ old ∈ (a.pending.keep a.cart), ∃ line ∈ a.cart, HasPk.pk old = line.pk := by
    intro old hold
    change old ∈ (a.pending.keep a.cart).rows at hold
    rw [rows_keep loop_eq] at hold
    obtain ⟨line, hline, rfl⟩ := List.mem_map.mp hold
    exact ⟨line, List.mem_of_mem_filter hline, pk_keptRow _ line⟩
  have hinsert : ((a.pending.keep a.cart).insertAll a.pending.toCreate).isSome := by
    rw [Table.insertAll_isSome_iff, toCreate_pending]
    refine ⟨nodup_newLines, fun line hline old hold => ?_⟩
    obtain ⟨row, hrow, hpk⟩ := hpks old hold
    rw [hpk]
    exact pk_newLines hline row hrow
  obtain ⟨cart, hcart⟩ := Option.isSome_iff_exists.mp hinsert
  exact ⟨cart, by rw [Pending.write, hcart]⟩

/-- Where there are no lines, nothing is reserved. -/
theorem reserve_nil {c : ReserveCall} (h : c.checkoutLines = []) (db : Stocks.Db) :
    reserveStocksAndPreorders c db = .ok db := by
  have hstock : c.stockLines = [] := by rw [ReserveCall.stockLines, h]; rfl
  have hpreorder : c.preorderLines = [] := by rw [ReserveCall.preorderLines, h]; rfl
  rw [reserveStocksAndPreorders, ReserveCall.serveStocks, if_pos hstock]
  dsimp only
  rw [ReserveCall.servePreorders, if_pos hpreorder]

theorem dangling_iff {s : Holdings} : s.dangling = true ↔
    ∃ k ∈ s.gone, (∃ r ∈ s.db.reservations.rows, r.checkoutLine = some k) ∨
      ∃ r ∈ s.db.preorderReservations.rows, r.checkoutLine = k := by
  rw [Holdings.dangling, Bool.or_eq_true, List.any_eq_true, List.any_eq_true]
  constructor
  · rintro (⟨r, hr, hgone⟩ | ⟨r, hr, hgone⟩)
    · obtain ⟨k, hk, hmem⟩ := (Option.any_eq_true _ _).mp hgone
      exact ⟨k, of_decide_eq_true hmem, .inl ⟨r, hr, hk⟩⟩
    · exact ⟨_, of_decide_eq_true hgone, .inr ⟨r, hr, rfl⟩⟩
  · rintro ⟨k, hk, ⟨r, hr, hline⟩ | ⟨r, hr, rfl⟩⟩
    · refine .inl ⟨r, hr, ?_⟩
      rw [hline, Option.any_some]
      exact decide_eq_true hk
    · exact .inr ⟨r, hr, decide_eq_true hk⟩

/-- A row of a line is one of before, of a line that is not deleted. -/
theorem mem_unlink {t : Reservations} {lines : List ℕ} {r : Reservation} {k : ℕ}
    (hk : r.checkoutLine = some k) : r ∈ (unlink t lines).rows ↔ r ∈ t.rows ∧ k ∉ lines := by
  rw [unlink, List.mem_map]
  constructor
  · rintro ⟨old, hold, rfl⟩
    split at hk
    · cases hk
    · rename_i hnot
      rw [hk, Option.any_some, decide_eq_true_iff] at hnot
      rw [if_neg (by rwa [hk, Option.any_some, decide_eq_true_iff])]
      exact ⟨hold, hnot⟩
  · rintro ⟨hr, hnot⟩
    exact ⟨r, hr, if_neg (by rwa [hk, Option.any_some, decide_eq_true_iff])⟩

/-- Rows are left behind where a row has one of the lines. -/
theorem filter_withoutLine_iff {lines : List ℕ} (rows : List Reservation) :
    (rows.map fun r => if r.checkoutLine.any (· ∈ lines) then { r with checkoutLine := none } else r
      ).filter (·.checkoutLine = none) = rows.filter (·.checkoutLine = none) ↔
      ∀ r ∈ rows, ¬ (r.checkoutLine.any (· ∈ lines)) = true := by
  have hle : ∀ rows : List Reservation,
      (rows.filter (·.checkoutLine = none)).length
        ≤ ((rows.map fun r => if r.checkoutLine.any (· ∈ lines) then
          { r with checkoutLine := none } else r).filter (·.checkoutLine = none)).length := by
    intro rows
    rw [List.filter_map, List.length_map]
    refine (List.monotone_filter_right rows fun r hr => ?_).length_le
    rw [Function.comp_apply, decide_eq_true_iff]
    split
    · rfl
    · exact of_decide_eq_true hr
  induction rows with
  | nil => simp
  | cons r rows ih =>
    rw [List.forall_mem_cons]
    refine Iff.trans ?_ (and_congr_right fun _ => ih)
    rw [List.map_cons, List.filter_cons, List.filter_cons]
    by_cases hline : r.checkoutLine.any (· ∈ lines) = true
    · have hsome : ¬ decide (r.checkoutLine = none) = true := by
        intro hnone
        rw [of_decide_eq_true hnone] at hline
        exact Bool.false_ne_true hline
      rw [if_pos hline, if_neg hsome, if_pos (decide_eq_true rfl)]
      refine iff_of_false (fun heq => ?_) fun h => h.1 hline
      have hlength := congrArg List.length heq
      have hshort := hle rows
      rw [List.length_cons] at hlength
      omega
    · rw [if_neg hline]
      by_cases hnone : decide (r.checkoutLine = none) = true
      · rw [if_pos hnone, if_pos hnone, and_iff_right hline, List.cons_inj_right]
      · rw [if_neg hnone, if_neg hnone, and_iff_right hline]

theorem unlink_withoutLine_iff {t : Reservations} {lines : List ℕ} :
    (unlink t lines).rows.filter (·.checkoutLine = none) = t.rows.filter (·.checkoutLine = none) ↔
      ∀ r ∈ t.rows, ∀ k ∈ lines, r.checkoutLine ≠ some k := by
  refine (filter_withoutLine_iff t.rows).trans (forall₂_congr fun r _ => ?_)
  rw [Option.any_eq_true]
  exact ⟨fun h k hmem hk => h ⟨k, hk, decide_eq_true hmem⟩,
    fun h ⟨k, hk, hmem⟩ => h k (of_decide_eq_true hmem) hk⟩

/-- **A call, by what is reserved.** -/
theorem run_eq : ∃ cart, a.run db =
    match reserveStocksAndPreorders a.call (a.released db).db with
    | .error e => .error (.inr e)
    | .ok db' =>
      if { a.released db with db := db' }.dangling then .error (.inr .integrityError)
      else .ok (cart, { a.released db with db := db' }) := by
  obtain ⟨cart, hcart⟩ := @exists_write _ a
  refine ⟨cart, ?_⟩
  have hlength : (some a.reservationLength).filter (· ≠ 0) = some a.reservationLength := by
    rw [Option.filter_some, if_pos (decide_eq_true a.positive.ne')]
  rw [run, addVariantsToCheckout, loop_eq]
  dsimp only
  rw [hcart]
  dsimp only
  rw [hlength, linesToUpdateReservationTime_pending]
  cases hlines : a.pending.toReserve with
  | nil =>
    have hnil : a.call.checkoutLines = [] := by
      change a.checkoutLines = []
      rw [checkoutLines, hlines, List.map_nil]
    have hdangling : ¬ (a.released db).dangling = true := by
      rw [dangling_iff]
      rintro ⟨k, hk, ⟨r, hr, hline⟩ | ⟨r, hr, rfl⟩⟩
      · exact ((mem_unlink hline).mp hr).2 hk
      · have hkept := (List.mem_filter.mp hr).2
        rw [Bool.not_eq_true', decide_eq_false_iff_not] at hkept
        exact hkept hk
    rw [reserve_nil hnil]
    dsimp only
    exact (if_neg hdangling).symm
  | cons line lines =>
    have hcheckoutLines : (line :: lines).map a.fetchLine = a.checkoutLines := by
      rw [checkoutLines, hlines]
    dsimp only [reserver]
    rw [hcheckoutLines, reserveCall_eq]
    dsimp only
    rw [released]
    cases reserveStocksAndPreorders a.call
      (Holdings.release a.pending.toDelete { db := db }).db with
    | error e => rfl
    | ok db' =>
      dsimp only
      cases { Holdings.release a.pending.toDelete { db := db } with db := db' }.dangling <;> rfl

/-! ### The lines that are to have rows -/

/-- Repeats of a list of keys, where each key has one value. -/
theorem nodup_filterMap_iff {β : Type} {f : ℕ → Option β} {key : β → ℕ}
    (hkey : ∀ k l, f k = some l → key l = k) (keys : List ℕ) :
    (keys.filterMap f).Nodup ↔ ∀ k, (f k).isSome → keys.count k ≤ 1 := by
  induction keys with
  | nil => simp
  | cons k keys ih =>
    cases hk : f k with
    | none =>
      rw [List.filterMap_cons_none hk, ih]
      refine forall₂_congr fun k' hk' => ?_
      rw [List.count_cons_of_ne]
      rintro rfl
      rw [hk] at hk'
      cases hk'
    | some l =>
      have hmem : l ∈ keys.filterMap f ↔ 0 < keys.count k := by
        rw [List.mem_filterMap, List.count_pos_iff]
        constructor
        · rintro ⟨k', hmem, hk'⟩
          rwa [← hkey k l hk, hkey k' l hk']
        · exact fun hmem => ⟨k, hmem, hk⟩
      rw [List.filterMap_cons_some hk, List.nodup_cons, hmem, ih]
      constructor
      · rintro ⟨hzero, hall⟩ k' hk'
        by_cases heq : k = k'
        · subst heq
          rw [List.count_cons_self]
          omega
        · rw [List.count_cons_of_ne heq]
          exact hall k' hk'
      · intro hall
        refine ⟨?_, fun k' hk' => ?_⟩
        · have hself := hall k (hk ▸ rfl)
          rw [List.count_cons_self] at hself
          omega
        · exact (List.count_le_count_cons).trans (hall k' hk')

/-- A line is passed once for each time it is in the list of lines to update. -/
theorem nodup_checkoutLines_iff {q : Stocks.CheckoutLine → Bool} {p : CheckoutLine → Bool}
    (hq : ∀ line, q (a.fetchLine line) = p line)
    (hp : ∀ line ∈ a.cart, p (final texts a.replace a.data line).line = p line) :
    (a.checkoutLines.filter q).Nodup ↔ ∀ line ∈ a.cart, p line = true → a.updates line ≤ 1 := by
  have hinj : ∀ line line' : CheckoutLine,
      a.fetchLine line = a.fetchLine line' → line.pk = line'.pk :=
    fun line line' h => congrArg Stocks.CheckoutLine.pk h
  let f : ℕ → Option Stocks.CheckoutLine := fun k =>
    ((a.pending.objects.find? k).map a.fetchLine).filter q
  have hkey : ∀ k l, f k = some l → l.pk = k := by
    intro k l hk
    obtain ⟨hmap, -⟩ := Option.filter_eq_some_iff.mp hk
    obtain ⟨line, hline, rfl⟩ := Option.map_eq_some_iff.mp hmap
    exact (Table.find?_eq_some.mp hline).2
  have hupdated :
      (a.pending.updated.map a.fetchLine).filter q = a.pending.toUpdate.filterMap f := by
    rw [Pending.updated, List.map_filterMap, List.filter_filterMap]
  have hlines : a.checkoutLines.filter q
      = (a.newLines.map a.fetchLine).filter q ++ a.pending.toUpdate.filterMap f := by
    rw [checkoutLines, Pending.toReserve, List.map_append, List.filter_append, toCreate_pending,
      hupdated]
  have hnew : ((a.newLines.map a.fetchLine).filter q).Nodup := by
    refine List.Nodup.filter _ (List.Nodup.of_map Stocks.CheckoutLine.pk ?_)
    rw [List.map_map]
    exact nodup_newLines
  have hdisjoint : List.Disjoint ((a.newLines.map a.fetchLine).filter q)
      (a.pending.toUpdate.filterMap f) := by
    intro l hl hl'
    rw [← hupdated] at hl'
    obtain ⟨line, hline, rfl⟩ := List.mem_map.mp (List.mem_of_mem_filter hl)
    obtain ⟨line', hline', heq⟩ := List.mem_map.mp (List.mem_of_mem_filter hl')
    obtain ⟨old, hcart, -, -, hpk, -⟩ := of_mem_changedLines (mem_updated.mp hline')
    exact pk_newLines hline old hcart (hpk.symm.trans (hinj _ _ heq))
  rw [hlines, List.nodup_append', and_iff_right hnew, and_iff_left hdisjoint,
    nodup_filterMap_iff hkey]
  constructor
  · intro h line hline hpline
    obtain ⟨hobject, hupdates, -⟩ := final_eq (@loop_eq _ a) hline
    rw [updates, hupdates]
    refine h line.pk ?_
    dsimp only [f]
    rw [hobject, Option.map_some, Option.filter_some, if_pos (by rw [hq, hp line hline, hpline])]
    rfl
  · intro h k hk
    cases hfind : a.cart.find? k with
    | none =>
      dsimp only [f] at hk
      rw [find?_pending hfind] at hk
      cases hk
    | some line =>
      obtain ⟨hline, rfl⟩ := Table.find?_eq_some.mp hfind
      obtain ⟨hobject, hupdates, -⟩ := final_eq (@loop_eq _ a) hline
      have hle := h line hline
      rw [updates, hupdates] at hle
      refine hle ?_
      dsimp only [f] at hk
      rw [pk_checkoutLine, hobject, Option.map_some, Option.filter_some] at hk
      split at hk
      · rename_i hqline
        rwa [hq, hp line hline] at hqline
      · cases hk

/-! ### What reserving should do -/

variable (a)

/-- The inventory of a line's variant is tracked, and it is no preorder. -/
def tracked (line : CheckoutLine) : Bool :=
  (a.fetch line.variant).trackInventory && !(a.fetch line.variant).isPreorderActive a.now

/-- The listing of a line's variant in the channel. -/
def listing (db : Stocks.Db) (line : CheckoutLine) : Option Stocks.ProductVariantChannelListing :=
  Stocks.variantToChannelListing db a.channel.slug (a.fetch line.variant).pk

/-- A line's variant is a preorder with a threshold. -/
def limited (db : Stocks.Db) (line : CheckoutLine) : Bool :=
  (ReserveCall.isSet (a.fetch line.variant).preorderGlobalThreshold
    || (a.listing db line).any (·.preorderQuantityThreshold.isSome))
      && (a.fetch line.variant).isPreorderActive a.now

/-- **Reservations follow the cart.** A tracked line that is created or changed holds its quantity,
the rows of the other lines last until the new time, and no line that is deleted has a row or leaves
one. -/
structure ReservationsFollow (before after : Stocks.Db) : Prop where
  held : ∀ line ∈ a.newLines ++ a.changedLines, a.tracked line →
    Stocks.heldBy after a.now line.pk = line.quantity
  lasting : ∀ k ∈ a.untouchedLines, ∀ r ∈ after.reservations.rows, r.checkoutLine = some k →
    r.reservedUntil = a.call.reservedUntil
  gone : ∀ k ∈ a.deletedLines, ∀ r ∈ after.reservations.rows, r.checkoutLine ≠ some k
  leftBehind : after.reservations.rows.filter (·.checkoutLine = none)
    = before.reservations.rows.filter (·.checkoutLine = none)

/-- The call says that there is not enough, or the reservations follow the cart. -/
def KeepsPromise (db : Stocks.Db) : Except (Failure ⊕ AllocateError) (Cart × Holdings) → Prop
  | .error (.inr (.insufficientStock _)) => True
  | .error _ => False
  | .ok (_, s) => a.ReservationsFollow db s.db

/-- **When they do.** The lines that are to have rows are in the list of lines to update once at
most, and not in that of lines to delete; preorders are listed; if only preorders are reserved, or
nothing, the rows of the other lines have the new time already; and the lines that are deleted have
no rows. -/
structure Sound (db : Stocks.Db) : Prop where
  once : ∀ line ∈ a.cart, a.tracked line || a.limited db line → a.updates line ≤ 1
  stay : ∀ line ∈ a.cart, a.tracked line || a.limited db line → 0 < a.updates line →
    a.deletes line = 0
  listed : ∀ line ∈ a.newLines ++ a.changedLines, (a.fetch line.variant).isPreorderActive a.now →
    (a.listing db line).isSome
  lasting : (∀ line ∈ a.newLines ++ a.changedLines, (a.fetch line.variant).isPreorderActive a.now) →
    ∀ k ∈ a.untouchedLines, ∀ r ∈ db.reservations.rows, r.checkoutLine = some k →
      r.reservedUntil = a.call.reservedUntil
  unheld : ∀ r ∈ db.reservations.rows, ∀ k ∈ a.deletedLines, r.checkoutLine ≠ some k

variable {a}

theorem variant_final {line : CheckoutLine} (hline : line ∈ a.cart) :
    (final texts a.replace a.data line).line.variant = line.variant :=
  (final_line (a.quantities line hline)).2.1

theorem trackedLines_eq : a.call.trackedLines = a.checkoutLines.filter fun l =>
    l.variant.trackInventory && !l.variant.isPreorderActive a.now := by
  rw [ReserveCall.trackedLines, ReserveCall.stockLines, List.filter_filter]
  rfl

theorem thresholdLines_eq : a.call.thresholdLines (a.released db).db
    = a.checkoutLines.filter fun l =>
    (ReserveCall.isSet l.variant.preorderGlobalThreshold
      || (Stocks.variantToChannelListing db a.channel.slug l.variant.pk).any
        (·.preorderQuantityThreshold.isSome)) && l.variant.isPreorderActive a.now := by
  rw [ReserveCall.thresholdLines, ReserveCall.preorderLines, List.filter_filter]
  rfl

theorem nodup_trackedLines_iff : a.call.trackedLines.Nodup ↔
    ∀ line ∈ a.cart, a.tracked line = true → a.updates line ≤ 1 := by
  rw [trackedLines_eq]
  refine nodup_checkoutLines_iff (p := a.tracked) (fun _ => rfl) fun line hline => ?_
  rw [tracked, tracked, variant_final hline]

theorem nodup_thresholdLines_iff : (a.call.thresholdLines (a.released db).db).Nodup ↔
    ∀ line ∈ a.cart, a.limited db line = true → a.updates line ≤ 1 := by
  rw [thresholdLines_eq]
  refine nodup_checkoutLines_iff (p := a.limited db) (fun _ => rfl) fun line hline => ?_
  rw [limited, limited, listing, listing, variant_final hline]

theorem preordersListed_iff : a.call.PreordersListed (a.released db).db ↔
    ∀ line ∈ a.newLines ++ a.changedLines, (a.fetch line.variant).isPreorderActive a.now →
      (a.listing db line).isSome := by
  constructor
  · intro h line hline hactive
    refine h (a.fetchLine line) (List.mem_filter.mpr ⟨?_, hactive⟩)
    exact List.mem_map_of_mem (mem_toReserve.mpr hline)
  · intro h l hl
    obtain ⟨hmem, hactive⟩ := List.mem_filter.mp hl
    obtain ⟨line, hline, rfl⟩ := List.mem_map.mp hmem
    exact h line (mem_toReserve.mp hline) hactive

/-- **The lines are passed as they should**, by the lists. -/
theorem passed_iff : a.call.Passed (a.released db).db ↔
    (∀ line ∈ a.cart, a.tracked line || a.limited db line → a.updates line ≤ 1) ∧
    ∀ line ∈ a.newLines ++ a.changedLines, (a.fetch line.variant).isPreorderActive a.now →
      (a.listing db line).isSome := by
  constructor
  · rintro ⟨htracked, hlisted, hthreshold⟩
    refine ⟨fun line hline h => ?_, preordersListed_iff.mp hlisted⟩
    rcases Bool.or_eq_true_iff.mp h with h | h
    · exact nodup_trackedLines_iff.mp htracked line hline h
    · exact nodup_thresholdLines_iff.mp hthreshold line hline h
  · rintro ⟨honce, hlisted⟩
    refine ⟨nodup_trackedLines_iff.mpr fun line hline h => ?_, preordersListed_iff.mpr hlisted,
      nodup_thresholdLines_iff.mpr fun line hline h => ?_⟩
    · exact honce line hline (Bool.or_eq_true_iff.mpr (.inl h))
    · exact honce line hline (Bool.or_eq_true_iff.mpr (.inr h))

/-- What callers see to, but for the channel. -/
theorem complete (hchannel : ∀ k ∈ Stocks.channelsWith db a.channel.slug, k = a.channel.pk) :
    a.call.Complete (a.released db).db where
  replace := rfl
  variant_mem := by
    intro l hl
    obtain ⟨line, hline, rfl⟩ := List.mem_map.mp hl
    exact variant_mem (mem_toReserve.mp hline)
  variant_unique := by
    intro v hv v' hv' hpk
    rw [← a.fetched v hv, ← a.fetched v' hv', hpk]
  channel_unique := hchannel

/-- A line of the checkout is passed if it is changed. -/
theorem pk_mem_iff {q : Stocks.CheckoutLine → Bool} {p : CheckoutLine → Bool}
    (hq : ∀ line, q (a.fetchLine line) = p line)
    (hp : ∀ line ∈ a.cart, p (final texts a.replace a.data line).line = p line)
    {line : CheckoutLine} (hline : line ∈ a.cart) :
    line.pk ∈ (a.checkoutLines.filter q).map (·.pk) ↔ p line = true ∧ 0 < a.updates line := by
  constructor
  · intro hpk
    obtain ⟨l, hl, hpk⟩ := List.mem_map.mp hpk
    obtain ⟨hmem, hql⟩ := List.mem_filter.mp hl
    obtain ⟨line', hline', rfl⟩ := List.mem_map.mp hmem
    rcases List.mem_append.mp (mem_toReserve.mp hline') with hnew | hold
    · exact absurd hpk.symm (pk_newLines hnew line hline)
    · obtain ⟨old, hcart, hpos, rfl, hold, -⟩ := of_mem_changedLines hold
      obtain rfl : old = line := a.cart.eq_of_pk_eq hcart hline (hold.symm.trans hpk)
      rw [hq, hp old hcart] at hql
      exact ⟨hql, hpos⟩
  · rintro ⟨hpline, hpos⟩
    have hmem : (final texts a.replace a.data line).line ∈ a.changedLines :=
      List.mem_map_of_mem (List.mem_filter.mpr ⟨hline, decide_eq_true hpos⟩)
    refine List.mem_map.mpr ⟨a.fetchLine (final texts a.replace a.data line).line,
      List.mem_filter.mpr ⟨?_, by rw [hq, hp line hline, hpline]⟩,
      (final_line (a.quantities line hline)).1⟩
    exact List.mem_map_of_mem (mem_toReserve.mpr (List.mem_append_right _ hmem))

theorem pk_mem_trackedLines {line : CheckoutLine} (hline : line ∈ a.cart) :
    line.pk ∈ a.call.trackedLines.map (·.pk) ↔ a.tracked line = true ∧ 0 < a.updates line := by
  rw [trackedLines_eq]
  refine pk_mem_iff (p := a.tracked) (fun _ => rfl) (fun line hline => ?_) hline
  rw [tracked, tracked, variant_final hline]

theorem pk_mem_thresholdLines {line : CheckoutLine} (hline : line ∈ a.cart) :
    line.pk ∈ (a.call.thresholdLines (a.released db).db).map (·.pk) ↔
      a.limited db line = true ∧ 0 < a.updates line := by
  rw [thresholdLines_eq]
  refine pk_mem_iff (p := a.limited db) (fun _ => rfl) (fun line hline => ?_) hline
  rw [limited, limited, listing, listing, variant_final hline]

/-- **A row refers to a line that is gone** if a line to have rows is to be deleted as well. -/
theorem dangling_reserved_iff {db' : Stocks.Db} (h : a.call.Reserved (a.released db).db db') :
    { a.released db with db := db' }.dangling = true ↔
      ∃ line ∈ a.cart, (a.tracked line || a.limited db line) = true ∧ 0 < a.updates line ∧
        0 < a.deletes line := by
  have hgone : ∀ k, k ∈ (a.released db).gone ↔ k ∈ a.deletedLines := fun k =>
    (iff_of_eq (congrArg (k ∈ ·) (List.nil_append _))).trans mem_toDelete
  have hnone : ∀ k ∈ a.deletedLines,
      ¬ ∃ r ∈ (a.released db).db.reservations.rows, r.checkoutLine = some k := by
    rintro k hk ⟨r, hr, hline⟩
    exact ((mem_unlink hline).mp hr).2 (mem_toDelete.mpr hk)
  have hnone' : ∀ k ∈ a.deletedLines,
      ¬ ∃ r ∈ (a.released db).db.preorderReservations.rows, r.checkoutLine = k := by
    rintro k hk ⟨r, hr, rfl⟩
    have hkept := (List.mem_filter.mp hr).2
    rw [Bool.not_eq_true', decide_eq_false_iff_not] at hkept
    exact hkept (mem_toDelete.mpr hk)
  have hrows : ∀ k ∈ a.deletedLines,
      ((∃ r ∈ db'.reservations.rows, r.checkoutLine = some k) ∨
        ∃ r ∈ db'.preorderReservations.rows, r.checkoutLine = k) ↔
      k ∈ a.call.trackedLines.map (·.pk) ∨
        k ∈ (a.call.thresholdLines (a.released db).db).map (·.pk) := by
    intro k hk
    rw [h.lines, h.preorderLines, or_iff_left (hnone k hk), or_iff_left (hnone' k hk)]
  rw [dangling_iff]
  constructor
  · rintro ⟨k, hk, hrow⟩
    have hk := (hgone k).mp hk
    have hpassed := (hrows k hk).mp hrow
    obtain ⟨line, hline, rfl⟩ := List.mem_map.mp hk
    obtain ⟨hline, hdeleted⟩ := List.mem_filter.mp hline
    rw [pk_mem_trackedLines hline, pk_mem_thresholdLines hline] at hpassed
    refine ⟨line, hline, ?_, hpassed.elim (·.2) (·.2), of_decide_eq_true hdeleted⟩
    exact Bool.or_eq_true_iff.mpr (hpassed.imp (·.1) (·.1))
  · rintro ⟨line, hline, hp, hpos, hdeleted⟩
    have hk : line.pk ∈ a.deletedLines :=
      List.mem_map_of_mem (List.mem_filter.mpr ⟨hline, decide_eq_true hdeleted⟩)
    refine ⟨line.pk, (hgone _).mpr hk, (hrows _ hk).mpr ?_⟩
    rw [pk_mem_trackedLines hline, pk_mem_thresholdLines hline]
    exact (Bool.or_eq_true_iff.mp hp).imp (⟨·, hpos⟩) (⟨·, hpos⟩)

/-- The call reserves no stocks if it is for preorders only. -/
theorem stockLines_eq_nil_iff : a.call.stockLines = [] ↔
    ∀ line ∈ a.newLines ++ a.changedLines, (a.fetch line.variant).isPreorderActive a.now := by
  rw [ReserveCall.stockLines, List.filter_eq_nil_iff]
  constructor
  · intro h line hline
    have hactive := h (a.fetchLine line) (List.mem_map_of_mem (mem_toReserve.mpr hline))
    rwa [Bool.not_eq_true', Bool.not_eq_false] at hactive
  · intro h l hl
    obtain ⟨line, hline, rfl⟩ := List.mem_map.mp hl
    rw [Bool.not_eq_true', Bool.not_eq_false]
    exact h line (mem_toReserve.mp hline)

/-- The rows of lines that are neither changed nor deleted are those of before, if no stocks are
reserved. -/
theorem lasting_iff {db' : Stocks.Db} (h : a.call.Reserved (a.released db).db db') :
    (∀ k ∈ a.untouchedLines, ∀ r ∈ db'.reservations.rows, r.checkoutLine = some k →
      r.reservedUntil = a.call.reservedUntil) ↔
    ((∀ line ∈ a.newLines ++ a.changedLines, (a.fetch line.variant).isPreorderActive a.now) →
      ∀ k ∈ a.untouchedLines, ∀ r ∈ db.reservations.rows, r.checkoutLine = some k →
        r.reservedUntil = a.call.reservedUntil) := by
  have hstays : ∀ k ∈ a.untouchedLines, k ∉ a.pending.toDelete := by
    intro k hk hdelete
    obtain ⟨line, hline, rfl⟩ := List.mem_map.mp hk
    obtain ⟨hcart, hzero⟩ := List.mem_filter.mp hline
    obtain ⟨line', hline', hpk⟩ := List.mem_map.mp (mem_toDelete.mp hdelete)
    obtain ⟨hcart', hpos⟩ := List.mem_filter.mp hline'
    obtain rfl := a.cart.eq_of_pk_eq hcart' hcart hpk
    exact (of_decide_eq_true hpos).ne' (of_decide_eq_true hzero).2
  rw [← stockLines_eq_nil_iff]
  by_cases hnil : a.call.stockLines = []
  · rw [h.unchanged hnil]
    constructor
    · intro hlast _ k hk r hr hline
      exact hlast k hk r ((mem_unlink hline).mpr ⟨hr, hstays k hk⟩) hline
    · intro hlast k hk r hr hline
      exact hlast hnil k hk r ((mem_unlink hline).mp hr).1 hline
  · refine iff_of_true (fun k hk r hr hline => h.updated hnil r hr ?_)
      fun hnil' => absurd hnil' hnil
    rw [ReserveCall.updates, hline, Option.any_some]
    exact decide_eq_true hk

/-- **Reservations follow the cart**, after a call that succeeds. -/
theorem reservationsFollow_iff {db' : Stocks.Db} (h : a.call.Reserved (a.released db).db db')
    (hdangling : ¬ { a.released db with db := db' }.dangling = true) :
    a.ReservationsFollow db db' ↔
    ((∀ line ∈ a.newLines ++ a.changedLines, (a.fetch line.variant).isPreorderActive a.now) →
      ∀ k ∈ a.untouchedLines, ∀ r ∈ db.reservations.rows, r.checkoutLine = some k →
        r.reservedUntil = a.call.reservedUntil) ∧
    ∀ r ∈ db.reservations.rows, ∀ k ∈ a.deletedLines, r.checkoutLine ≠ some k := by
  have hdeleted : (∀ r ∈ db.reservations.rows, ∀ k ∈ a.deletedLines, r.checkoutLine ≠ some k) ↔
      db'.reservations.rows.filter (·.checkoutLine = none)
        = db.reservations.rows.filter (·.checkoutLine = none) := by
    rw [h.withoutLine]
    refine Iff.trans ?_ unlink_withoutLine_iff.symm
    exact forall₂_congr fun r _ => forall_congr' fun k => imp_congr_left mem_toDelete.symm
  rw [hdeleted, ← lasting_iff h]
  constructor
  · exact fun hfollow => ⟨hfollow.lasting, hfollow.leftBehind⟩
  · rintro ⟨hlasting, hleft⟩
    refine ⟨fun line hline htracked => ?_, hlasting, fun k hk r hr hline => ?_, hleft⟩
    · have hmem : a.fetchLine line ∈ a.call.trackedLines := by
        rw [trackedLines_eq]
        exact List.mem_filter.mpr ⟨List.mem_map_of_mem (mem_toReserve.mpr hline), htracked⟩
      refine (h.held _ hmem).trans ?_
      exact Int.toNat_of_nonneg (quantity_pos hline).le
    · refine hdangling (dangling_iff.mpr ⟨k, ?_, .inl ⟨r, hr, hline⟩⟩)
      exact List.mem_append_right _ (mem_toDelete.mpr hk)

end CartCall

/-! ### Shirts -/

/-- Three shirts for the line that has one, and a price for them or not. -/
def shirtsData (price : Bool) : CheckoutLineData where
  lineId := some (shopTexts.str 2)
  quantity := 3
  quantityToUpdate := true
  customPriceToUpdate := price

theorem pos_mugsAndShirts : ∀ line ∈ mugsAndShirts.rows, 0 < line.quantity := by decide

theorem tenMinutes_pos : (0 : ℤ) < 10 := by decide

/-- The line is set to three shirts, of the five in stock. -/
def shirtsCall (price : Bool) : CartCall shopTexts where
  cart := mugsAndShirts
  keys := fromHundred
  data := [shirtsData price]
  variants := [{ pk := 2 }]
  fetch v := { pk := v }
  replace := true
  countryCode := "CN"
  channel := { pk := 1, slug := "default" }
  reservationLength := 10
  now := 0
  quantities := pos_mugsAndShirts
  positive := tenMinutes_pos
  pk_fetch _ := rfl
  fetched v hv := by
    obtain rfl := List.mem_singleton.mp hv
    rfl
  covered d hd := by
    obtain rfl := List.mem_singleton.mp hd
    exact .inl ⟨{ pk := 2, variant := 2, quantity := 1 }, rfl, List.mem_cons_self⟩

theorem channelsWith_stockDb (price : Bool) :
    ∀ k ∈ Stocks.channelsWith Stocks.stockDb (shirtsCall price).channel.slug,
      k = (shirtsCall price).channel.pk := by
  have h : ∀ k ∈ Stocks.channelsWith Stocks.stockDb "default", k = 1 := by decide
  exact h

end CartLines

end Aixinwu
