import Aixinwu.Lib.Runs
import Aixinwu.Order.LineEditing

/-!
# Edited orders are allocated in full

What the requests of `Aixinwu.Order.LineEditing` keep is one equation for each line: it has
allocated what is due to it. That is its quantity if the order is unconfirmed or completed and the
variant tracked, and nothing otherwise. Whether a variant is tracked depends on the time, through
the end of a preorder; the results are about runs in which no preorder ends.

The requests need the equation themselves. Those that change or delete a line look for the warehouse
of its first allocation and raise where there is none: for a line of an unconfirmed order that is
not tracked (`exec_lineDelete_isOk_iff`).

## Main definitions

* `due` — what is due to a line
* `InFull` — the invariant

## Main results

* `inFull_run` — every run
* `exec_lineDelete_isOk_iff` — the lines that can be deleted
-/

namespace Aixinwu

namespace Stocks

namespace Editing

open Runs

/-! ### What is due to a line -/

/-- The orders that this is about: those that can be edited, and those that are completed and not
yet fulfilled. -/
def IsOpen (o : Order) : Prop :=
  o.status = .draft ∨ o.status = .unconfirmed ∨ o.status = .unfulfilled

/-- The line is of a variant that is tracked. -/
def trackedLine (tracked : ℕ → Bool) (db : Db) (l : OrderLine) : Bool :=
  (variantOf db l).any fun v => tracked v.pk

/-- What is due to a line: its quantity, unless its order is a draft or its variant is not tracked.
-/
def due (tracked : ℕ → Bool) (s : State) (o : Order) (l : OrderLine) : ℤ :=
  if o.status ≠ .draft ∧ trackedLine tracked s.db l then s.quantity l.pk else 0

/-- **The invariant.** Every line has allocated what is due to it, but for some lines that are being
worked on; only tracked lines have allocations; every line has items; and the counters are right. -/
structure InFull (tracked : ℕ → Bool) (working : Set ℕ) (s : State) : Prop where
  allocated : ∀ l ∈ s.db.orderLines, l.pk ∉ working → ∀ o ∈ s.db.orders, o.pk = l.order → IsOpen o →
    allocatedTo s.db l.pk = due tracked s o l
  rows : ∀ a ∈ s.db.allocations, ∃ l ∈ s.db.orderLines, l.pk = a.orderLine ∧
    trackedLine tracked s.db l
  positive : ∀ l ∈ s.db.orderLines, 0 < s.quantity l.pk
  counted : Counted s.db

section Invariant

variable {tracked : ℕ → Bool} {working : Set ℕ} {s s' : State} {db' : Db} {l : OrderLine}
  {o : Order} {now : Time} {columns : ℕ → OrderColumns}

theorem trackedLine_congr {db : Db} (h : db'.variants = db.variants) (l : OrderLine) :
    trackedLine tracked db' l = trackedLine tracked db l := by
  rw [trackedLine, variantOf, h]
  rfl

theorem variantOf_mem {db : Db} {v : ProductVariant} (h : variantOf db l = some v) :
    v ∈ db.variants ∧ l.variant = some v.pk := by
  obtain ⟨k, hk, hfind⟩ := Option.bind_eq_some_iff.mp h
  obtain ⟨hv, hpk⟩ := Table.find?_eq_some.mp hfind
  exact ⟨hv, hk.trans (congrArg some hpk.symm)⟩

/-- Whether a line is tracked when a request is made. -/
theorem isTracked_eq {db : Db} (hsteady : ∀ v ∈ db.variants, tracks now v = tracked v.pk)
    {info : OrderLineInfo} (hinfo : info.variant = variantOf db l) :
    isTracked now info = trackedLine tracked db l := by
  rw [isTracked, trackedLine, hinfo]
  cases hv : variantOf db l with
  | none => rfl
  | some v => exact hsteady v (variantOf_mem hv).1

/-- The work on a line. -/
theorem InFull.touch {t : Bool} {n q : ℤ} (h : InFull tracked working s) (hl : l ∈ s.db.orderLines)
    (hc : Changed t l.pk n s.db db') (ht : t → trackedLine tracked s.db l) (hq : 0 < q) :
    InFull tracked (insert l.pk working)
      { db := db', quantity := Function.update s.quantity l.pk q } where
  allocated l' hl' hworking o ho hpk hopen := by
    have hne : l'.pk ≠ l.pk := fun heq => hworking (.inl heq)
    have hold := h.allocated l' (hc.orderLines ▸ hl') (fun hin => hworking (.inr hin)) o
      (hc.orders ▸ ho) hpk hopen
    rw [hc.allocated, if_neg hne, hold, due, due, trackedLine_congr hc.variants]
    dsimp only
    rw [Function.update_of_ne hne]
  rows a ha := by
    rcases hc.rows a ha with ⟨b, hb, heq⟩ | ⟨hline, htracked⟩
    · obtain ⟨l', hl', hpk, htrack⟩ := h.rows b hb
      refine ⟨l', hc.orderLines.symm ▸ hl', hpk.trans heq, ?_⟩
      rwa [trackedLine_congr hc.variants]
    · refine ⟨l, hc.orderLines.symm ▸ hl, hline.symm, ?_⟩
      rw [trackedLine_congr hc.variants]
      exact ht htracked
  positive l' hl' := by
    dsimp only
    by_cases heq : l'.pk = l.pk
    · rw [heq, Function.update_self]
      exact hq
    · rw [Function.update_of_ne heq]
      exact h.positive l' (hc.orderLines ▸ hl')
  counted := hc.counted h.counted

/-- The work on a line is done. -/
theorem InFull.settle (h : InFull tracked (insert l.pk working) s) (hl : l ∈ s.db.orderLines)
    (hdue : ∀ o ∈ s.db.orders, o.pk = l.order → IsOpen o →
      allocatedTo s.db l.pk = due tracked s o l) : InFull tracked working s where
  allocated l' hl' hworking o ho hpk hopen := by
    by_cases heq : l'.pk = l.pk
    · obtain rfl : l' = l := Table.eq_of_pk_eq hl' hl heq
      exact hdue o ho hpk hopen
    · exact h.allocated l' hl' (fun hin => hin.elim heq hworking) o ho hpk hopen
  rows := h.rows
  positive := h.positive
  counted := h.counted

/-- **A line has changed**, its allocations with it. -/
theorem InFull.change {t : Bool} {n q : ℤ} (h : InFull tracked ∅ s) (hl : l ∈ s.db.orderLines)
    (hc : Changed t l.pk n s.db db') (ht : t → trackedLine tracked s.db l) (hq : 0 < q)
    (hn : ∀ o ∈ s.db.orders, o.pk = l.order → IsOpen o →
      n = if o.status ≠ .draft ∧ trackedLine tracked s.db l then q else 0) :
    InFull tracked ∅ { db := db', quantity := Function.update s.quantity l.pk q } := by
  refine (h.touch hl hc ht hq).settle (hc.orderLines.symm ▸ hl) fun o ho hpk hopen => ?_
  rw [hc.allocated, if_pos rfl, due, trackedLine_congr hc.variants]
  dsimp only
  rw [Function.update_self]
  exact hn o (hc.orders ▸ ho) hpk hopen

/-- Where a line has nothing allocated, none of its allocations holds items. -/
theorem quantityAllocated_eq_zero {db : Db} {line : ℕ} (hzero : allocatedTo db line = 0)
    {a : Allocation} (ha : a ∈ db.allocations) (hline : a.orderLine = line) :
    (a.quantityAllocated : ℤ) = 0 := by
  refine le_antisymm ?_ (Int.natCast_nonneg _)
  rw [← hzero, allocatedTo, sumIf]
  refine List.single_le_sum (fun x hx => ?_) _ (List.mem_map_of_mem
    (List.mem_filter.mpr ⟨ha, decide_eq_true hline⟩))
  obtain ⟨b, -, rfl⟩ := List.mem_map.mp hx
  exact Int.natCast_nonneg _

/-- Allocations without items can go. -/
theorem sumIf_deleteLine {db : Db} {line : ℕ} (hzero : allocatedTo db line = 0)
    (p : Allocation → Bool) :
    sumIf p (fun a : Allocation => (a.quantityAllocated : ℤ)) (deleteLine line db).allocations.rows
      = sumIf p (fun a : Allocation => (a.quantityAllocated : ℤ)) db.allocations.rows := by
  have hrows : (deleteLine line db).allocations.rows
      = db.allocations.rows.filter fun a => !decide (a.orderLine = line) := rfl
  rw [hrows, sumIf_filter]
  refine sumIf_of_subset (fun a _ ha => (Bool.and_eq_true_iff.mp ha).1) fun a ha hpa hnot => ?_
  refine quantityAllocated_eq_zero hzero ha ?_
  by_contra hne
  exact hnot (by simp [hpa, hne])

/-- A line goes, when it has nothing allocated any more. -/
theorem InFull.delete (h : InFull tracked (insert l.pk working) s)
    (hzero : allocatedTo s.db l.pk = 0) :
    InFull tracked working { s with db := deleteLine l.pk s.db } where
  allocated l' hl' hworking o ho hpk hopen := by
    obtain ⟨hin, hkept⟩ := Table.mem_delete.mp hl'
    have hne : l'.pk ≠ l.pk := of_decide_eq_false hkept
    exact (sumIf_deleteLine hzero _).trans
      (h.allocated l' hin (fun hmem => hmem.elim hne hworking) o ho hpk hopen)
  rows a ha := by
    obtain ⟨hin, hkept⟩ := Table.mem_delete.mp ha
    obtain ⟨l', hl', hpk, htrack⟩ := h.rows a hin
    refine ⟨l', Table.mem_delete.mpr ⟨hl', ?_⟩, hpk, htrack⟩
    rw [hpk]
    exact hkept
  positive l' hl' := h.positive l' (Table.mem_delete.mp hl').1
  counted := by
    refine ⟨fun st hst => ?_, fun a ha => h.counted.stock_exists a (Table.mem_delete.mp ha).1⟩
    exact (h.counted.counter st hst).trans (sumIf_deleteLine hzero _).symm

/-! ### Changing and deleting lines -/

theorem validateOrder_eq_ok {db : Db} {order : ℕ} (h : validateOrder db order = .ok o) :
    o ∈ db.orders ∧ o.pk = order ∧ (o.status = .draft ∨ o.status = .unconfirmed) := by
  rw [validateOrder] at h
  split at h
  · cases h
  · rename_i hfind
    obtain ⟨hmem, hpk⟩ := Table.find?_eq_some.mp hfind
    split at h
    · rename_i hstatus
      obtain rfl := Except.ok.inj h
      exact ⟨hmem, hpk, hstatus⟩
    · cases h

/-- `_update_allocations_for_line`, of a line that has allocated what is due to it. -/
theorem changed_updateAllocations {db : Db} {info : OrderLineInfo} {oldQuantity newQuantity : ℤ}
    (hold : allocatedTo db info.line = if isTracked now info then oldQuantity else 0)
    (hnew : 0 ≤ newQuantity)
    (hok : updateAllocationsForLine columns o now info oldQuantity newQuantity db = .ok db') :
    Changed (isTracked now info) info.line (if isTracked now info then newQuantity else 0) db
      db' := by
  rw [updateAllocationsForLine] at hok
  split at hok
  · rename_i heq
    obtain rfl := Except.ok.inj hok
    rw [← heq, ← hold]
    exact Changed.refl _ _ _
  · rename_i hne
    rw [getOrderLinesWithTrackInventory_one] at hok
    by_cases htracked : isTracked now info
    · rw [if_pos htracked, if_neg (List.cons_ne_nil _ _)] at hok
      rw [if_pos htracked] at hold ⊢
      split at hok
      · have hc := changed_increaseAllocations hok
        have htracked' : isTracked now { info with quantity := newQuantity - oldQuantity } = true :=
          htracked
        rw [htracked', if_pos rfl] at hc
        rw [htracked]
        have hsum : allocatedTo db info.line + (newQuantity - oldQuantity) = newQuantity := by
          omega
        rwa [hsum] at hc
      · rename_i hlt
        have hc := changed_decreaseAllocations
          (fun _ => ⟨by dsimp only; omega, by dsimp only; omega⟩) hok
        have htracked' : isTracked now { info with quantity := oldQuantity - newQuantity } = true :=
          htracked
        rw [htracked', if_pos rfl] at hc
        rw [htracked]
        have hsum : allocatedTo db info.line - (oldQuantity - newQuantity) = newQuantity := by
          omega
        rwa [hsum] at hc
    · rw [if_neg htracked, if_pos rfl] at hok
      obtain rfl := Except.ok.inj hok
      rw [if_neg htracked] at hold ⊢
      rw [← hold]
      exact Changed.refl _ _ _

/-- What a request leaves. -/
structure Edited (tracked : ℕ → Bool) (s s' : State) : Prop where
  inFull : InFull tracked ∅ s'
  orders : s'.db.orders = s.db.orders
  variants : s'.db.variants = s.db.variants

/-- The order of a line. -/
theorem eq_of_order {db : Db} {o' : Order} (ho : o ∈ db.orders) (hpk : o.pk = l.order)
    (ho' : o' ∈ db.orders) (hpk' : o'.pk = l.order) : o' = o :=
  Table.eq_of_pk_eq ho' ho (hpk'.trans hpk.symm)

theorem isOpen_of_editable (h : o.status = .draft ∨ o.status = .unconfirmed) : IsOpen o :=
  h.imp_right .inl

/-- `change_order_line_quantity`, to a number of items. -/
theorem edited_changeOrderLineQuantity (h : InFull tracked ∅ s)
    (hsteady : ∀ v ∈ s.db.variants, tracks now v = tracked v.pk) (hl : l ∈ s.db.orderLines)
    (ho : o ∈ s.db.orders) (hpk : o.pk = l.order)
    (hstatus : o.status = .draft ∨ o.status = .unconfirmed) {info : OrderLineInfo}
    (hline : info.line = l.pk) (hvariant : info.variant = variantOf s.db l) {newQuantity : ℤ}
    (hnew : 0 < newQuantity)
    (hok : changeOrderLineQuantity columns o now info (s.quantity l.pk) newQuantity s = .ok s') :
    Edited tracked s s' := by
  have hdue := h.allocated l hl (Set.notMem_empty _) o ho hpk (isOpen_of_editable hstatus)
  have htracked := isTracked_eq hsteady hvariant
  rw [due] at hdue
  rw [changeOrderLineQuantity, if_pos hnew.ne'] at hok
  rcases hstatus with hdraft | hunconfirmed
  · rw [if_neg (by rw [hdraft]; exact nofun)] at hok
    obtain rfl := Except.ok.inj hok
    rw [if_neg (fun hne => hne.1 hdraft)] at hdue
    have hrefl := Changed.refl false l.pk s.db
    rw [hdue] at hrefl
    rw [hline]
    refine ⟨h.change hl hrefl nofun hnew fun o' ho' hpk' _ => ?_, rfl, rfl⟩
    rw [eq_of_order ho hpk ho' hpk', if_neg fun hne => hne.1 hdraft]
  · rw [if_pos hunconfirmed] at hok
    obtain ⟨db', hdb', rfl⟩ := exists_of_map_eq_ok hok
    have hne : o.status ≠ .draft := by
      rw [hunconfirmed]
      exact nofun
    have hold : allocatedTo s.db info.line
        = if isTracked now info then s.quantity l.pk else 0 := by
      rw [hline, hdue, htracked]
      simp only [hne, ne_eq, not_false_eq_true, true_and]
    have hc := changed_updateAllocations hold hnew.le hdb'
    rw [hline, htracked] at hc
    rw [hline]
    refine ⟨h.change hl hc id hnew fun o' ho' hpk' _ => ?_, hc.orders, hc.variants⟩
    rw [eq_of_order ho hpk ho' hpk']
    simp only [hne, ne_eq, not_false_eq_true, true_and]

/-- `delete_order_line`. -/
theorem edited_deleteOrderLine (h : InFull tracked ∅ s)
    (hsteady : ∀ v ∈ s.db.variants, tracks now v = tracked v.pk) (hl : l ∈ s.db.orderLines)
    (ho : o ∈ s.db.orders) (hpk : o.pk = l.order)
    (hstatus : o.status = .draft ∨ o.status = .unconfirmed) {info : OrderLineInfo}
    (hline : info.line = l.pk) (hvariant : info.variant = variantOf s.db l)
    (hquantity : info.quantity = s.quantity l.pk)
    (hok : deleteOrderLine o now info s = .ok s') : Edited tracked s s' := by
  have hdue := h.allocated l hl (Set.notMem_empty _) o ho hpk (isOpen_of_editable hstatus)
  have htracked := isTracked_eq hsteady hvariant
  rw [due] at hdue
  rw [deleteOrderLine] at hok
  rcases hstatus with hdraft | hunconfirmed
  · rw [if_neg (by rw [hdraft]; exact nofun)] at hok
    obtain rfl := Except.ok.inj hok
    rw [if_neg (fun hne => hne.1 hdraft)] at hdue
    rw [hline]
    have hrefl := Changed.refl false l.pk s.db
    have htouch := h.touch hl hrefl nofun (h.positive l hl)
    rw [Function.update_eq_self] at htouch
    exact ⟨htouch.delete hdue, rfl, rfl⟩
  · rw [if_pos hunconfirmed] at hok
    obtain ⟨db', hdb', rfl⟩ := exists_of_map_eq_ok hok
    have hne : o.status ≠ .draft := by
      rw [hunconfirmed]
      exact nofun
    simp only [hne, ne_eq, not_false_eq_true, true_and] at hdue
    have hc := changed_decreaseAllocations (fun htrack => ?_) hdb'
    · rw [hline, htracked, hdue, hquantity, sub_self] at hc
      have htouch := h.touch hl hc id (h.positive l hl)
      rw [Function.update_eq_self] at htouch
      rw [hline]
      exact ⟨htouch.delete ((hc.allocated l.pk).trans (if_pos rfl)), hc.orders, hc.variants⟩
    · rw [hline, hdue, hquantity, ← htracked, if_pos htrack]
      exact ⟨(h.positive l hl).le, le_rfl⟩

theorem eq_ok_of_mapError {ε ε' α : Type*} {f : ε → ε'} {x : Except ε α} {a : α}
    (h : x.mapError f = .ok a) : x = .ok a := by
  cases x with
  | error e => cases h
  | ok b =>
    obtain rfl := Except.ok.inj h
    rfl

theorem edited_orderLineUpdate (h : InFull tracked ∅ s)
    (hsteady : ∀ v ∈ s.db.variants, tracks now v = tracked v.pk) {line : ℕ} {quantity : ℤ}
    (hok : orderLineUpdate columns now line quantity s = .ok s') : Edited tracked s s' := by
  rw [orderLineUpdate] at hok
  split at hok
  · cases hok
  · rename_i l hfind
    obtain ⟨hl, rfl⟩ := Table.find?_eq_some.mp hfind
    obtain ⟨o, hvalid, hok⟩ := exists_of_bind_eq_ok hok
    obtain ⟨ho, hpk, hstatus⟩ := validateOrder_eq_ok hvalid
    split at hok
    · cases hok
    · rename_i hpos
      obtain ⟨warehousePk, -, hok⟩ := exists_of_bind_eq_ok hok
      exact edited_changeOrderLineQuantity h hsteady hl ho hpk hstatus rfl rfl (not_le.mp hpos)
        (eq_ok_of_mapError hok)

theorem edited_orderLineDelete (h : InFull tracked ∅ s)
    (hsteady : ∀ v ∈ s.db.variants, tracks now v = tracked v.pk) {line : ℕ}
    (hok : orderLineDelete now line s = .ok s') : Edited tracked s s' := by
  rw [orderLineDelete] at hok
  split at hok
  · cases hok
  · rename_i l hfind
    obtain ⟨hl, rfl⟩ := Table.find?_eq_some.mp hfind
    obtain ⟨o, hvalid, hok⟩ := exists_of_bind_eq_ok hok
    obtain ⟨ho, hpk, hstatus⟩ := validateOrder_eq_ok hvalid
    obtain ⟨warehousePk, -, hok⟩ := exists_of_bind_eq_ok hok
    exact edited_deleteOrderLine h hsteady hl ho hpk hstatus rfl rfl rfl (eq_ok_of_mapError hok)

/-! ### Adding lines -/

/-- What is asked for fits the lines: it is of a variant that exists, and a line that is to get it
is of that variant. -/
structure Fits (lines : List OrderLine) (db : Db) (data : OrderLineData) : Prop where
  quantity : 0 < data.quantity
  variant : data.variant ∈ db.variants
  line : ∀ line, data.lineId = some line → ∃ l ∈ lines, l.pk = line ∧
    l.variant = some data.variant.pk

theorem findLineIdForVariantIfExist_eq_some {lines : List OrderLine} {variant line : ℕ}
    (h : findLineIdForVariantIfExist lines variant = some line) :
    ∃ l ∈ lines, l.pk = line ∧ l.variant = some variant := by
  rw [findLineIdForVariantIfExist] at h
  split at h
  · rename_i l hfilter
    have hmem : l ∈ lines.filter fun l => decide (l.variant = some variant) := by
      rw [hfilter]
      exact List.mem_singleton_self _
    obtain ⟨hl, hvariant⟩ := List.mem_filter.mp hmem
    exact ⟨l, hl, Option.some.inj h, of_decide_eq_true hvariant⟩
  · cases h

theorem fits_addData {lines : List OrderLine} {db : Db} {key : ℕ ⊕ ℕ} {data : OrderLineData}
    (hdata : Fits lines db data) {l : List ((ℕ ⊕ ℕ) × OrderLineData)}
    (hl : ∀ e ∈ l, Fits lines db e.2) : ∀ e ∈ addData key data l, Fits lines db e.2 := by
  induction l with
  | nil =>
    intro e he
    rw [List.mem_singleton.mp he]
    exact hdata
  | cons d l ih =>
    rw [addData]
    have hd := hl d List.mem_cons_self
    have hrest : ∀ e ∈ l, Fits lines db e.2 := fun e he => hl e (List.mem_cons_of_mem d he)
    split
    · intro e he
      rcases List.mem_cons.mp he with rfl | he
      · exact ⟨add_pos hd.quantity hdata.quantity, hdata.variant, hdata.line⟩
      · exact hrest e he
    · intro e he
      rcases List.mem_cons.mp he with rfl | he
      · exact hd
      · exact ih hrest e he

/-- **What `validate_lines` accepts** fits. -/
theorem fits_validateLines {lines : List OrderLine} {db : Db} {input : List LineInput}
    {data : List OrderLineData} (h : validateLines db lines input = .ok data) :
    ∀ d ∈ data, Fits lines db d := by
  have hgather : ∀ (input : List LineInput) (g g' : Gathered),
      ((∀ d ∈ g.groupedLinesData, Fits lines db d) ∧ ∀ e ∈ g.linesDataMap, Fits lines db e.2) →
      input.foldlM (gatherLine db lines) g = .ok g' →
      (∀ d ∈ g'.groupedLinesData, Fits lines db d) ∧ ∀ e ∈ g'.linesDataMap, Fits lines db e.2 := by
    intro input
    induction input with
    | nil =>
      intro g g' hg hok
      obtain rfl := Except.ok.inj hok
      exact hg
    | cons i input ih =>
      intro g g' hg hok
      rw [List.foldlM_cons] at hok
      obtain ⟨g₁, hline, hok⟩ := exists_of_bind_eq_ok hok
      refine ih g₁ g' ?_ hok
      rw [gatherLine] at hline
      split at hline
      · cases hline
      · rename_i variant hfind
        have hmem := (Table.find?_eq_some.mp hfind).1
        split at hline
        · rename_i hpos
          split at hline
          · obtain rfl := Except.ok.inj hline
            refine ⟨fun d hd => ?_, hg.2⟩
            rcases List.mem_append.mp hd with hd | hd
            · exact hg.1 d hd
            · rw [List.mem_singleton.mp hd]
              exact ⟨hpos, hmem, nofun⟩
          · obtain rfl := Except.ok.inj hline
            exact ⟨hg.1, fits_addData
              ⟨hpos, hmem, fun line hline => findLineIdForVariantIfExist_eq_some hline⟩ hg.2⟩
        · obtain rfl := Except.ok.inj hline
          exact hg
  rw [validateLines] at h
  obtain ⟨g, hg, h⟩ := exists_of_bind_eq_ok h
  obtain ⟨hgrouped, hmap⟩ := hgather input {} g ⟨nofun, nofun⟩ hg
  split at h
  · obtain rfl := Except.ok.inj h
    intro d hd
    rcases List.mem_append.mp hd with hd | hd
    · exact hgrouped d hd
    · obtain ⟨e, he, rfl⟩ := List.mem_map.mp hd
      exact hmap e he
  · cases h

theorem lt_nextLine {db : Db} (hl : l ∈ db.orderLines) : l.pk < nextLine db := by
  have hle : ∀ (ks : List ℕ), ∀ k ∈ ks, k ≤ ks.foldr max 0 := by
    intro ks
    induction ks with
    | nil => exact nofun
    | cons j ks ih =>
      intro k hk
      rcases List.mem_cons.mp hk with rfl | hk
      · exact le_max_left _ _
      · exact (ih k hk).trans (le_max_right _ _)
  exact Nat.lt_succ_of_le (hle _ _ (List.mem_map_of_mem hl))

/-- The rows of a line that is created. -/
theorem rows_createLine (o : Order) (data : OrderLineData) (s : State) :
    (createLine o data s).db.orderLines.rows = s.db.orderLines.rows ++
      [{ pk := nextLine s.db, order := o.pk, variant := some data.variant.pk }] := by
  have hfresh : ∀ l ∈ s.db.orderLines.rows, HasPk.pk l ≠ HasPk.pk
      ({ pk := nextLine s.db, order := o.pk, variant := some data.variant.pk } : OrderLine) :=
    fun l hl => (lt_nextLine hl).ne
  rw [createLine]
  dsimp only
  rw [Table.insert, dif_pos hfresh]
  rfl

/-- `create_order_line`: the line has nothing allocated yet. -/
theorem inFull_createLine (h : InFull tracked ∅ s) (o : Order) {data : OrderLineData}
    (hquantity : 0 < data.quantity) :
    InFull tracked (insert (nextLine s.db) ∅) (createLine o data s) ∧
      allocatedTo (createLine o data s).db (nextLine s.db) = 0 := by
  have hmem : ∀ {l}, l ∈ (createLine o data s).db.orderLines ↔ l ∈ s.db.orderLines ∨
      l = { pk := nextLine s.db, order := o.pk, variant := some data.variant.pk } := by
    intro l
    rw [Table.mem_def, rows_createLine, List.mem_append, List.mem_singleton]
    rfl
  have hupdate : ∀ l ∈ s.db.orderLines, (createLine o data s).quantity l.pk = s.quantity l.pk :=
    fun l hl => Function.update_of_ne (lt_nextLine hl).ne _ _
  refine ⟨⟨fun l hl hworking o' ho' hpk hopen => ?_, fun a ha => ?_, fun l hl => ?_, ?_⟩, ?_⟩
  · rcases hmem.mp hl with hl | rfl
    · refine (h.allocated l hl (Set.notMem_empty _) o' ho' hpk hopen).trans ?_
      rw [due, due, hupdate l hl]
      rfl
    · exact absurd (Set.mem_insert _ _) hworking
  · obtain ⟨l, hl, hpk, htrack⟩ := h.rows a ha
    exact ⟨l, hmem.mpr (.inl hl), hpk, htrack⟩
  · rcases hmem.mp hl with hl | rfl
    · rw [hupdate l hl]
      exact h.positive l hl
    · exact hquantity.trans_eq (Function.update_self (nextLine s.db) data.quantity s.quantity).symm
  · exact ⟨h.counted.counter, h.counted.stock_exists⟩
  · refine sumIf_eq_zero fun a ha hline => ?_
    obtain ⟨l, hl, hpk, -⟩ := h.rows a ha
    exact absurd (hpk.trans (of_decide_eq_true hline)) (lt_nextLine hl).ne

/-- What is left to do for a line that has got some more items. -/
theorem edited_allocateMore (h : InFull tracked (insert l.pk ∅) s)
    (hsteady : ∀ v ∈ s.db.variants, tracks now v = tracked v.pk) (hl : l ∈ s.db.orderLines)
    (ho : o ∈ s.db.orders) (hpk : o.pk = l.order)
    (hstatus : o.status = .draft ∨ o.status = .unconfirmed) {data : OrderLineData}
    (hvariant : variantOf s.db l = some data.variant) {before : ℤ}
    (hquantity : s.quantity l.pk = before + data.quantity)
    (hallocated : allocatedTo s.db l.pk
      = if o.status ≠ .draft ∧ trackedLine tracked s.db l then before else 0)
    (hok : allocateMore columns o now l.pk data s = .ok s') :
    Edited tracked s s' ∧ s'.db.orderLines = s.db.orderLines := by
  rw [allocateMore] at hok
  rcases hstatus with hdraft | hunconfirmed
  · rw [if_neg (by rw [hdraft]; exact nofun)] at hok
    obtain rfl := Except.ok.inj hok
    refine ⟨⟨h.settle hl fun o' ho' hpk' _ => ?_, rfl, rfl⟩, rfl⟩
    rw [eq_of_order ho hpk ho' hpk', hallocated, due, if_neg fun hne => hne.1 hdraft,
      if_neg fun hne => hne.1 hdraft]
  · rw [if_pos hunconfirmed] at hok
    obtain ⟨db', hdb', rfl⟩ := exists_of_map_eq_ok hok
    have hne : o.status ≠ .draft := by
      rw [hunconfirmed]
      exact nofun
    have hc := changed_increaseAllocations hdb'
    have htracked : isTracked now
        { line := l.pk, quantity := data.quantity, variant := some data.variant }
        = trackedLine tracked s.db l := isTracked_eq hsteady hvariant.symm
    rw [htracked] at hc
    have htouch := h.touch hl hc id (h.positive l hl)
    rw [Function.update_eq_self, Set.insert_eq_of_mem (Set.mem_insert _ _)] at htouch
    refine ⟨⟨htouch.settle (hc.orderLines.symm ▸ hl) fun o' ho' hpk' _ => ?_, hc.orders,
      hc.variants⟩, hc.orderLines⟩
    rw [eq_of_order ho hpk (hc.orders ▸ ho') hpk', hc.allocated, if_pos rfl, due,
      trackedLine_congr hc.variants, hquantity, hallocated]
    simp only [hne, ne_eq, not_false_eq_true, true_and]
    split <;> rfl

/-- Without a variant only the quantity changes. -/
theorem changeOrderLineQuantity_without_variant (line : ℕ) (quantity old : ℤ) {newQuantity : ℤ}
    (hnew : newQuantity ≠ 0) (s : State) :
    changeOrderLineQuantity columns o now { line, quantity } old newQuantity s
      = .ok { s with quantity := Function.update s.quantity line newQuantity } := by
  have hnone : updateAllocationsForLine columns o now { line, quantity } old newQuantity s.db
      = .ok s.db := by
    rw [updateAllocationsForLine, getOrderLinesWithTrackInventory_one]
    split
    · rfl
    · rfl
  rw [changeOrderLineQuantity, if_pos hnew, hnone]
  split <;> rfl

theorem variantOf_eq_some {db : Db} {v : ProductVariant} (hv : v ∈ db.variants)
    (hl : l.variant = some v.pk) : variantOf db l = some v := by
  rw [variantOf, hl, Option.bind_some]
  exact Table.mem_iff_find?.mp hv

/-- **`add_variant_to_order`**. -/
theorem edited_addVariantToOrder (h : InFull tracked ∅ s)
    (hsteady : ∀ v ∈ s.db.variants, tracks now v = tracked v.pk) (ho : o ∈ s.db.orders)
    (hstatus : o.status = .draft ∨ o.status = .unconfirmed) {lines : List OrderLine}
    (hlines : ∀ l ∈ lines, l ∈ s.db.orderLines ∧ l.order = o.pk) {data : OrderLineData}
    (hfits : Fits lines s.db data) (hok : addVariantToOrder columns o now s data = .ok s') :
    Edited tracked s s' ∧ ∀ l ∈ s.db.orderLines, l ∈ s'.db.orderLines := by
  rw [addVariantToOrder] at hok
  split at hok
  · rename_i line hlineId
    obtain ⟨l, hl, rfl, hvariant⟩ := hfits.line line hlineId
    obtain ⟨hl, horder⟩ := hlines l hl
    obtain ⟨s₁, hchange, hok⟩ := exists_of_bind_eq_ok hok
    have hnew : 0 < s.quantity l.pk + data.quantity := add_pos (h.positive l hl) hfits.quantity
    rw [changeOrderLineQuantity_without_variant _ _ _ hnew.ne'] at hchange
    obtain rfl := Except.ok.inj hchange
    have htouch := h.touch hl (Changed.refl false l.pk s.db) nofun hnew
    have hdue := h.allocated l hl (Set.notMem_empty _) o ho horder.symm (isOpen_of_editable hstatus)
    obtain ⟨hedited, hkept⟩ := edited_allocateMore htouch hsteady hl ho horder.symm hstatus
      (variantOf_eq_some hfits.variant hvariant)
      (Function.update_self l.pk (s.quantity l.pk + data.quantity) s.quantity) hdue hok
    exact ⟨⟨hedited.inFull, hedited.orders, hedited.variants⟩, fun l' hl' => hkept.symm ▸ hl'⟩
  · obtain ⟨hcreated, hzero⟩ := inFull_createLine h o hfits.quantity
    have hmem : ∀ l, l ∈ (createLine o data s).db.orderLines ↔ l ∈ s.db.orderLines ∨
        l = { pk := nextLine s.db, order := o.pk, variant := some data.variant.pk } := by
      intro l
      rw [Table.mem_def, rows_createLine, List.mem_append, List.mem_singleton]
      rfl
    have hl := (hmem _).mpr (.inr rfl)
    have hquantity : (createLine o data s).quantity (nextLine s.db) = 0 + data.quantity := by
      rw [zero_add]
      exact Function.update_self (nextLine s.db) data.quantity s.quantity
    have hallocated : allocatedTo (createLine o data s).db (nextLine s.db)
        = if o.status ≠ .draft ∧ trackedLine tracked (createLine o data s).db
            { pk := nextLine s.db, order := o.pk, variant := some data.variant.pk }
          then 0 else 0 := by
      rw [hzero, ite_self]
    obtain ⟨hedited, hkept⟩ := edited_allocateMore (s := createLine o data s)
      (l := { pk := nextLine s.db, order := o.pk, variant := some data.variant.pk }) hcreated
      hsteady hl ho rfl hstatus (variantOf_eq_some hfits.variant rfl) hquantity hallocated hok
    exact ⟨⟨hedited.inFull, hedited.orders, hedited.variants⟩,
      fun l hl => hkept.symm ▸ (hmem l).mpr (.inl hl)⟩

theorem edited_orderLinesCreate (h : InFull tracked ∅ s)
    (hsteady : ∀ v ∈ s.db.variants, tracks now v = tracked v.pk) {order : ℕ}
    {input : List LineInput} {refused : Option EditError}
    (hok : orderLinesCreate columns now order input refused s = .ok s') : Edited tracked s s' := by
  rw [orderLinesCreate] at hok
  obtain ⟨o, hvalid, hok⟩ := exists_of_bind_eq_ok hok
  obtain ⟨ho, rfl, hstatus⟩ := validateOrder_eq_ok hvalid
  obtain ⟨data, hdata, hok⟩ := exists_of_bind_eq_ok hok
  have hfits := fits_validateLines hdata
  have hall : ∀ (data : List OrderLineData) (s₁ : State), Edited tracked s s₁ →
      (∀ l ∈ s.db.orderLines, l ∈ s₁.db.orderLines) →
      (∀ d ∈ data, Fits (s.db.orderLines.rows.filter (·.order = o.pk)) s.db d) →
      data.foldlM (addVariantToOrder columns o now) s₁ = .ok s' → Edited tracked s s' := by
    intro data
    induction data with
    | nil =>
      intro s₁ hs₁ _ _ hok
      obtain rfl := Except.ok.inj hok
      exact hs₁
    | cons d data ih =>
      intro s₁ hs₁ hkept hfits hok
      rw [List.foldlM_cons] at hok
      obtain ⟨s₂, hadd, hok⟩ := exists_of_bind_eq_ok hok
      have hd := hfits d List.mem_cons_self
      obtain ⟨hedited, hkept'⟩ := edited_addVariantToOrder hs₁.inFull (hs₁.variants ▸ hsteady)
        (hs₁.orders ▸ ho) hstatus
        (fun l hl => ⟨hkept l (List.mem_of_mem_filter hl),
          of_decide_eq_true (List.mem_filter.mp hl).2⟩)
        ⟨hd.quantity, hs₁.variants ▸ hd.variant, hd.line⟩ hadd
      refine ih s₂ ⟨hedited.inFull, hedited.orders.trans hs₁.orders,
        hedited.variants.trans hs₁.variants⟩ (fun l hl => hkept' l (hkept l hl))
        (fun e he => hfits e (List.mem_cons_of_mem d he)) hok
  split at hok
  · cases hok
  · exact hall data s ⟨h, rfl, rfl⟩ (fun _ hl => hl) hfits (eq_ok_of_mapError hok)

/-! ### Completing a draft -/

/-- What completing a draft does for a line that has nothing allocated yet. -/
theorem changed_allocateLine {db : Db} (hsteady : ∀ v ∈ db.variants, tracks now v = tracked v.pk)
    (hzero : allocatedTo db l.pk = 0) {check : Bool} {quantity : ℕ → ℤ}
    (hok : allocateLine columns now o check quantity db l = .ok db') :
    Changed (trackedLine tracked db l) l.pk
      (if trackedLine tracked db l then quantity l.pk else 0) db db' := by
  have hrefl : trackedLine tracked db l = false → Changed (trackedLine tracked db l) l.pk
      (if trackedLine tracked db l then quantity l.pk else 0) db db := by
    intro htracked
    have hsame := Changed.refl (trackedLine tracked db l) l.pk db
    rw [hzero] at hsame
    rwa [if_neg (by rw [htracked]; exact Bool.false_ne_true)]
  rw [allocateLine] at hok
  split at hok
  · rename_i hnone
    obtain rfl := Except.ok.inj hok
    refine hrefl ?_
    rw [trackedLine, hnone]
    rfl
  · rename_i variant hvariant
    have hinfo : ∀ n, isTracked now { line := l.pk, quantity := n, variant := some variant }
        = trackedLine tracked db l := fun n => isTracked_eq hsteady hvariant.symm
    split at hok
    · obtain ⟨db₁, hstocks, hpreorders⟩ := exists_of_bind_eq_ok hok
      have hc := changed_allocateStocks rfl hstocks
      rw [hinfo, hzero, zero_add] at hc
      obtain ⟨rows, t, rfl, -, -⟩ := allocatePreorders_eq_ok hpreorders
      exact ⟨hc.orders, hc.orderLines, hc.variants, hc.allocated, hc.rows,
        fun h => ⟨(hc.counted h).counter, (hc.counted h).stock_exists⟩⟩
    · rename_i hneither
      obtain rfl := Except.ok.inj hok
      refine hrefl ?_
      rw [← hinfo 0]
      rw [Bool.or_eq_true_iff, not_or, Bool.not_eq_true, Bool.not_eq_true] at hneither
      show tracks now variant = false
      rw [tracks, hneither.1]
      rfl

/-- The lines of a completed draft, one after another. -/
theorem inFull_allocateLines {check : Bool} {lines : List OrderLine} (db : Db) {quantity : ℕ → ℤ}
    (hnodup : (lines.map (·.pk)).Nodup) (hlines : ∀ l ∈ lines, l ∈ db.orderLines)
    (hstatus : ∀ l ∈ lines, ∀ o ∈ db.orders, o.pk = l.order → o.status ≠ .draft)
    (hzero : ∀ l ∈ lines, allocatedTo db l.pk = 0)
    (hsteady : ∀ v ∈ db.variants, tracks now v = tracked v.pk)
    (h : InFull tracked {k | k ∈ lines.map (·.pk)} { db, quantity })
    (hok : lines.foldlM (allocateLine columns now o check quantity) db = .ok db') :
    InFull tracked ∅ { db := db', quantity } ∧ db'.variants = db.variants := by
  induction lines generalizing db with
  | nil =>
    obtain rfl := Except.ok.inj hok
    exact ⟨⟨fun l hl _ => h.allocated l hl nofun, h.rows, h.positive, h.counted⟩, rfl⟩
  | cons l lines ih =>
    rw [List.foldlM_cons] at hok
    obtain ⟨db₁, hline, hok⟩ := exists_of_bind_eq_ok hok
    obtain ⟨hnotin, hnodup⟩ := List.nodup_cons.mp hnodup
    have hl := hlines l List.mem_cons_self
    have hc := changed_allocateLine hsteady (hzero l List.mem_cons_self) hline
    have htouch := h.touch hl hc id (h.positive l hl)
    rw [Function.update_eq_self] at htouch
    have hworking : insert l.pk {k | k ∈ (l :: lines).map (·.pk)}
        = insert l.pk {k | k ∈ lines.map (·.pk)} := by
      ext k
      simp
    rw [hworking] at htouch
    have hsettled := htouch.settle (hc.orderLines.symm ▸ hl) fun o ho hpk _ => by
      have hne := hstatus l List.mem_cons_self o (hc.orders ▸ ho) hpk
      rw [hc.allocated, if_pos rfl, due, trackedLine_congr hc.variants]
      simp only [hne, ne_eq, not_false_eq_true, true_and]
    obtain ⟨hdone, hvariants⟩ := ih db₁ hnodup
      (fun l' hl' => hc.orderLines.symm ▸ hlines l' (List.mem_cons_of_mem l hl'))
      (fun l' hl' o ho => hstatus l' (List.mem_cons_of_mem l hl') o (hc.orders ▸ ho))
      (fun l' hl' => by
        have hne : l'.pk ≠ l.pk := fun heq =>
          hnotin (List.mem_map.mpr ⟨l', hl', heq⟩)
        rw [hc.allocated, if_neg hne]
        exact hzero l' (List.mem_cons_of_mem l hl'))
      (hc.variants.symm ▸ hsteady) hsettled hok
    exact ⟨hdone, hvariants.trans hc.variants⟩

theorem inFull_draftOrderComplete (h : InFull tracked ∅ s)
    (hsteady : ∀ v ∈ s.db.variants, tracks now v = tracked v.pk) {order : ℕ}
    {refused : Option EditError} {check : Bool}
    (hok : draftOrderComplete columns now order refused check s = .ok s') :
    InFull tracked ∅ s' ∧ s'.db.variants = s.db.variants := by
  rw [draftOrderComplete] at hok
  split at hok
  · cases hok
  rename_i o hfind
  obtain ⟨ho, rfl⟩ := Table.find?_eq_some.mp hfind
  split at hok
  · cases hok
  rename_i hdraft
  have hdraft := not_not.mp hdraft
  split at hok
  · cases hok
  obtain ⟨db', hdb', rfl⟩ := exists_of_map_eq_ok (eq_ok_of_mapError hok)
  have horders : ∀ o' ∈ (setUnfulfilled o.pk s.db).orders,
      (o'.pk = o.pk → o'.status ≠ .draft) ∧ (o'.pk ≠ o.pk → o' ∈ s.db.orders) := by
    intro o' ho'
    obtain ⟨row, hrow, rfl⟩ := List.mem_map.mp ho'
    split
    · exact ⟨fun _ => nofun, fun hne => absurd ‹_› hne⟩
    · rename_i hne
      exact ⟨fun heq => absurd heq hne, fun _ => hrow⟩
  have hlines : ∀ l ∈ s.db.orderLines.rows.filter (·.order = o.pk), l ∈ s.db.orderLines ∧
      l.order = o.pk := fun l hl =>
    ⟨List.mem_of_mem_filter hl, of_decide_eq_true (List.mem_filter.mp hl).2⟩
  have hsteady' : ∀ v ∈ (setUnfulfilled o.pk s.db).variants, tracks now v = tracked v.pk := hsteady
  refine inFull_allocateLines (setUnfulfilled o.pk s.db) ?_ (fun l hl => (hlines l hl).1)
    (fun l hl o' ho' hpk => ?_) (fun l hl => ?_) hsteady'
    ⟨fun l hl hworking o' ho' hpk hopen => ?_, h.rows, h.positive,
      ⟨h.counted.counter, h.counted.stock_exists⟩⟩ hdb'
  · exact (List.filter_sublist.map HasPk.pk).nodup s.db.orderLines.nodup
  · exact (horders o' ho').1 (hpk.trans (hlines l hl).2)
  · refine (h.allocated l (hlines l hl).1 (Set.notMem_empty _) o ho (hlines l hl).2.symm
      (.inl hdraft)).trans ?_
    rw [due, if_neg fun hne => hne.1 hdraft]
  · have hne : o'.pk ≠ o.pk := by
      intro heq
      refine hworking (List.mem_map_of_mem (List.mem_filter.mpr ⟨hl, decide_eq_true ?_⟩))
      exact hpk.symm.trans heq
    exact h.allocated l hl (Set.notMem_empty _) o' ((horders o' ho').2 hne) hpk hopen

/-! ### Runs -/

/-- **A request** keeps the invariant. -/
theorem inFull_exec (h : InFull tracked ∅ s)
    (hsteady : ∀ v ∈ s.db.variants, tracks now v = tracked v.pk) {r : Request}
    (hok : exec columns now s r = .ok s') :
    InFull tracked ∅ s' ∧ s'.db.variants = s.db.variants := by
  cases r with
  | linesCreate order input refused =>
    have hedited := edited_orderLinesCreate h hsteady hok
    exact ⟨hedited.inFull, hedited.variants⟩
  | lineUpdate line quantity =>
    have hedited := edited_orderLineUpdate h hsteady hok
    exact ⟨hedited.inFull, hedited.variants⟩
  | lineDelete line =>
    have hedited := edited_orderLineDelete h hsteady hok
    exact ⟨hedited.inFull, hedited.variants⟩
  | draftComplete order refused check => exact inFull_draftOrderComplete h hsteady hok

theorem inFull_step (h : InFull tracked ∅ s) {c : Call}
    (hsteady : ∀ v ∈ s.db.variants, tracks c.now v = tracked v.pk) :
    InFull tracked ∅ (step s c) ∧ (step s c).db.variants = s.db.variants := by
  rw [step]
  cases hexec : exec c.columns c.now s c.request with
  | error e => exact ⟨h, rfl⟩
  | ok s' => exact inFull_exec h hsteady hexec

/-- **Orders that are edited stay allocated in full**, in every run of requests that succeed or
raise, on any orders and with any stock: as long as no preorder begins or ends, each line of an
unconfirmed or a completed order has exactly its quantity allocated, if its variant is tracked, and
nothing otherwise, a line of a draft has nothing, and the counters of the stocks are right. -/
theorem inFull_run (h : InFull tracked ∅ s) (calls : List Call)
    (hsteady : ∀ c ∈ calls, ∀ v ∈ s.db.variants, tracks c.now v = tracked v.pk) :
    InFull tracked ∅ (run step s calls) := by
  induction calls generalizing s with
  | nil => exact h
  | cons c calls ih =>
    obtain ⟨hs, hvariants⟩ := inFull_step h (hsteady c List.mem_cons_self)
    refine ih hs fun c' hc' v hv => hsteady c' (List.mem_cons_of_mem c hc') v ?_
    exact hvariants ▸ hv

/-! ### The lines that can be deleted -/

/-- A line that is tracked has an allocation, and no other has. -/
theorem InFull.exists_allocation_iff (h : InFull tracked ∅ s) (hl : l ∈ s.db.orderLines)
    (ho : o ∈ s.db.orders) (hpk : o.pk = l.order) (hstatus : o.status = .unconfirmed) :
    (∃ a ∈ s.db.allocations, a.orderLine = l.pk) ↔ trackedLine tracked s.db l := by
  constructor
  · rintro ⟨a, ha, hline⟩
    obtain ⟨l', hl', hpk', htrack⟩ := h.rows a ha
    rwa [← Table.eq_of_pk_eq hl' hl (hpk'.trans hline)]
  · intro htrack
    have hdue := h.allocated l hl (Set.notMem_empty _) o ho hpk (.inr (.inl hstatus))
    rw [due, if_pos ⟨by rw [hstatus]; exact nofun, htrack⟩] at hdue
    by_contra hnone
    have hzero : allocatedTo s.db l.pk = 0 := sumIf_eq_zero fun a ha hline =>
      absurd ⟨a, ha, of_decide_eq_true hline⟩ hnone
    have hpos := h.positive l hl
    omega

/-- Deleting a line does not fail any more. -/
theorem deleteOrderLine_isOk (o : Order) (now : Time) (info : OrderLineInfo) (s : State) :
    ∃ s', deleteOrderLine o now info s = .ok s' := by
  have hdecrease : ∃ db', decreaseAllocations now [info] s.db = .ok db' := by
    rw [decreaseAllocations]
    split
    · exact ⟨s.db, rfl⟩
    · exact ⟨_, rfl⟩
  obtain ⟨db', hdb'⟩ := hdecrease
  rw [deleteOrderLine, hdb']
  split
  · exact ⟨_, rfl⟩
  · exact ⟨_, rfl⟩

theorem warehouseOfLine_isOk_iff {db : Db} {line : ℕ} :
    (∃ w, warehouseOfLine db o line = .ok w) ↔
      o.status ≠ .unconfirmed ∨ ∃ a ∈ db.allocations, a.orderLine = line := by
  rw [warehouseOfLine]
  by_cases hstatus : o.status = .unconfirmed
  · rw [if_pos hstatus]
    cases hfind : db.allocations.rows.find? (·.orderLine = line) with
    | none =>
      refine iff_of_false nofun fun hor => hor.elim (fun hne => hne hstatus) ?_
      rintro ⟨a, ha, hline⟩
      exact List.find?_eq_none.mp hfind a ha (decide_eq_true hline)
    | some a =>
      have hline := List.find?_some hfind
      exact iff_of_true ⟨_, rfl⟩
        (.inr ⟨a, List.mem_of_find?_eq_some hfind, of_decide_eq_true hline⟩)
  · rw [if_neg hstatus]
    exact iff_of_true ⟨_, rfl⟩ (.inl hstatus)

/-- **What can be deleted**: the lines of drafts, and of an unconfirmed order those that are
tracked. For any other line of it the code raises, as it has no allocation. -/
theorem exec_lineDelete_isOk_iff (h : InFull tracked ∅ s) (hl : l ∈ s.db.orderLines)
    (ho : o ∈ s.db.orders) (hpk : o.pk = l.order) :
    (∃ s', exec columns now s (.lineDelete l.pk) = .ok s') ↔
      o.status = .draft ∨ (o.status = .unconfirmed ∧ trackedLine tracked s.db l) := by
  have hfind : s.db.orderLines.find? l.pk = some l := Table.mem_iff_find?.mp hl
  have horder : s.db.orders.find? l.order = some o := hpk ▸ Table.mem_iff_find?.mp ho
  have hwarehouse : (∃ s', exec columns now s (.lineDelete l.pk) = .ok s') ↔
      (o.status = .draft ∨ o.status = .unconfirmed) ∧ ∃ w, warehouseOfLine s.db o l.pk = .ok w := by
    rw [exec, orderLineDelete, hfind]
    dsimp only
    rw [validateOrder, horder]
    dsimp only
    by_cases hstatus : o.status = .draft ∨ o.status = .unconfirmed
    · rw [if_pos hstatus]
      show (∃ s', (warehouseOfLine s.db o l.pk).bind _ = .ok s') ↔ _
      constructor
      · rintro ⟨s', hok⟩
        obtain ⟨w, hw, -⟩ := exists_of_bind_eq_ok hok
        exact ⟨hstatus, w, hw⟩
      · rintro ⟨-, w, hw⟩
        obtain ⟨s', hs'⟩ := deleteOrderLine_isOk o now
          { line := l.pk, quantity := s.quantity l.pk, variant := variantOf s.db l
            warehousePk := w } s
        refine ⟨s', ?_⟩
        rw [hw]
        show (deleteOrderLine o now _ s).mapError _ = _
        rw [hs']
        rfl
    · rw [if_neg hstatus]
      exact iff_of_false nofun fun hand => hstatus hand.1
  rw [hwarehouse, warehouseOfLine_isOk_iff]
  constructor
  · rintro ⟨hdraft | hunconfirmed, hrow⟩
    · exact .inl hdraft
    · have hrow := hrow.resolve_left fun hne => hne hunconfirmed
      exact .inr ⟨hunconfirmed, (h.exists_allocation_iff hl ho hpk hunconfirmed).mp hrow⟩
  · rintro (hdraft | ⟨hunconfirmed, htrack⟩)
    · refine ⟨.inl hdraft, .inl ?_⟩
      rw [hdraft]
      exact nofun
    · exact ⟨.inr hunconfirmed,
        .inr ((h.exists_allocation_iff hl ho hpk hunconfirmed).mpr htrack)⟩

end Invariant

/-- A warehouse with three shirts, and an unconfirmed order without lines. -/
def shirts : State where
  db := {
    channels := Table.singleton { pk := 1, slug := "default" }
    channelWarehouses := Table.singleton { pk := 1, channel := 1, warehouse := 1 }
    warehouses := Table.singleton { pk := 1, shippingZones := [1] }
    shippingZones := Table.singleton { pk := 1, countries := ["CN"], channels := [1] }
    variants := Table.singleton { pk := 2 }
    orders := Table.singleton { pk := 1, status := .unconfirmed, country := "CN" }
    stocks := Table.singleton { pk := 3, warehouse := 1, productVariant := 2, quantity := 3 } }
  quantity := fun _ => 0

/-- The columns of that order. -/
def shirtColumns : ℕ → OrderColumns := fun _ =>
  { channel := { pk := 1, slug := "default" }, shippingCountry := some "CN" }

/-- Two shirts are ordered. -/
def orderShirts : Call := ⟨.linesCreate 1 [{ variantId := 2, quantity := 2 }] none, 0, shirtColumns⟩

theorem inFull_shirts : InFull (fun _ => true) ∅ shirts where
  allocated _ hl := absurd hl List.not_mem_nil
  rows _ ha := absurd ha List.not_mem_nil
  positive _ hl := absurd hl List.not_mem_nil
  counted := by
    refine ⟨fun st hst => ?_, fun _ ha => absurd ha List.not_mem_nil⟩
    rw [List.mem_singleton.mp hst]
    rfl

theorem tracks_shirts : ∀ v ∈ shirts.db.variants, tracks 0 v = true := by
  intro v hv
  rw [List.mem_singleton.mp hv]
  rfl

/-- One more is added; a fourth is not to be had. -/
theorem inFull_run_shirts :
    let calls : List Call :=
      [orderShirts, ⟨.lineUpdate 1 3, 0, shirtColumns⟩, ⟨.lineUpdate 1 4, 0, shirtColumns⟩]
    InFull (fun _ => true) ∅ (run step shirts calls) ∧
      allocatedTo (run step shirts calls).db 1 = 3 := by
  intro calls
  refine ⟨inFull_run inFull_shirts calls fun c hc => ?_, by decide⟩
  have hnow : c.now = 0 := by
    simp only [calls, List.mem_cons, List.not_mem_nil, or_false] at hc
    rcases hc with rfl | rfl | rfl <;> rfl
  rw [hnow]
  exact tracks_shirts

/-- The line can be deleted. -/
theorem exec_lineDelete_isOk_shirts :
    ∃ s', exec shirtColumns 0 (step shirts orderShirts) (.lineDelete 1) = .ok s' := by
  have hs := (inFull_step inFull_shirts tracks_shirts (c := orderShirts)).1
  refine (exec_lineDelete_isOk_iff hs (l := { pk := 1, order := 1, variant := some 2 })
    (o := { pk := 1, status := .unconfirmed, country := "CN" }) ?_ ?_ rfl).mpr (.inr ⟨rfl, ?_⟩)
  · exact List.mem_singleton_self _
  · exact List.mem_singleton_self _
  · decide

end Editing

end Stocks

end Aixinwu
