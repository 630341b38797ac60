import Aixinwu.Lib.OrderBy
import Aixinwu.Lib.Positions
import Aixinwu.Lib.Runs
import Aixinwu.Lib.Table
import Mathlib

/-!
# Ordered collections

`SortableModel` of `saleor/core/models.py` and `perform_reordering` of
`saleor/graphql/core/utils/reordering.py`. The members of a collection have a number each, and the
collection is the list of its members in the order of the numbers. Whoever writes them works on the
numbers: a new member gets the next one, deleting a member takes one off all larger numbers, and
moving a member shifts the numbers between the two places.

A reordering holds its members twice, as a map from keys to numbers that is shifted and as a list of
keys in which the positions are looked up. The two agree as long as the numbers are those from zero
up, and every operation leaves them so.

The key of a new member is chosen by the database, so it is an argument here, and a key that is taken
leaves the collection as it was.

## Main definitions

* `Member`, `members`
* `save`, `delete`
* `Reordering`, `performReordering`
* `place` — what the operations are for, on lists

## Main results

* `members_step` — in every state reached the numbers are distinct, and the next operation does to
  the list what it is for
-/

namespace Aixinwu

namespace Sortable

variable {κ : Type} [LinearOrder κ]

/-- A row of a `SortableModel`, as far as its place is concerned. -/
structure Member (κ : Type) where
  pk : κ
  sortOrder : Option ℤ := none
deriving DecidableEq, Repr

instance : HasPk (Member κ) κ := ⟨Member.pk⟩

omit [LinearOrder κ] in
@[simp] theorem pk_member (m : Member κ) : HasPk.pk m = m.pk := rfl

/-- `order_by(F("sort_order").asc(nulls_last=True), "id")`. -/
def sortKey (m : Member κ) : WithTop ℤ ×ₗ κ := toLex (nullsLast m.sortOrder, m.pk)

/-- The members of a collection, in order. -/
def members (t : Table (Member κ)) : List κ := (orderBy sortKey t.rows).map (·.pk)

/-! ### `SortableModel` -/

/-- `get_max_sort_order`. -/
def getMaxSortOrder (t : Table (Member κ)) : Option ℤ := (t.rows.filterMap (·.sortOrder)).max?

/-- `SortableModel.save`, of an instance without a key. -/
def save (pk : κ) (t : Table (Member κ)) : Table (Member κ) :=
  let sortOrder := match getMaxSortOrder t with
    | none => 0
    | some existingMax => existingMax + 1
  (t.insert ⟨pk, some sortOrder⟩).getD t

/-- `qs.filter(sort_order__gt=n).update(sort_order=F("sort_order") - 1)`. -/
def closeGap (n : ℤ) (t : Table (Member κ)) : Table (Member κ) :=
  t.map (fun m => if m.sortOrder.any (n < ·) then
    { m with sortOrder := m.sortOrder.map (· - 1) } else m) fun m => by split <;> rfl

/-- `SortableModel.delete`, of the row with a key. -/
def delete (pk : κ) (t : Table (Member κ)) : Table (Member κ) :=
  match t.find? pk with
  | none => t
  | some m =>
    match m.sortOrder with
    | none => t.delete (·.pk = pk)
    | some n => (closeGap n t).delete (·.pk = pk)

/-! ### `Reordering` -/

/-- What a `Reordering` holds. -/
structure Reordering (κ : Type) where
  orderedNodeMap : List (κ × ℤ)
  oldSortMap : List (κ × Option ℤ)
  orderedPks : List κ

/-- The loop of `ordered_node_map`: members without a number get the next one. -/
def fillNulls : ℤ → List (κ × Option ℤ) → List (κ × ℤ)
  | _, [] => []
  | _, (pk, some n) :: l => (pk, n) :: fillNulls n l
  | previousSortOrder, (pk, none) :: l =>
    (pk, previousSortOrder + 1) :: fillNulls (previousSortOrder + 1) l

namespace Reordering

/-- `ordered_node_map`. -/
def load (t : Table (Member κ)) : Reordering κ :=
  let orderingMap := (orderBy sortKey t.rows).map fun m => (m.pk, m.sortOrder)
  { orderedNodeMap := fillNulls 0 orderingMap
    oldSortMap := orderingMap
    orderedPks := orderingMap.map (·.1) }

/-- `self.ordered_node_map[pk]`, of a key that is there. -/
def sortOrderOf (r : Reordering κ) (pk : κ) : ℤ := (r.orderedNodeMap.lookup pk).getD 0

/-- `calculate_new_sort_order`: the position to move to and the number found there. -/
def calculateNewSortOrder (r : Reordering κ) (pk : κ) (move : ℤ) : ℕ × ℤ :=
  let nodePos := r.orderedPks.idxOf pk
  let targetPos := clampIdx r.orderedPks.length (nodePos + move)
  (targetPos, (r.orderedPks[targetPos]?.map r.sortOrderOf).getD 0)

/-- `add_to_sort_value_if_in_range`. -/
def addToSortValueIfInRange (r : Reordering κ) (valueToAdd start stop : ℤ) : Reordering κ :=
  { r with
    orderedNodeMap := r.orderedNodeMap.map fun e =>
      if start ≤ e.2 ∧ e.2 ≤ stop then (e.1, e.2 + valueToAdd) else e }

/-- The rest of `process_move_operation`: the number of the member, and its place in the list. -/
def put (r : Reordering κ) (pk : κ) (targetPos : ℕ) (newSortOrder : ℤ) : Reordering κ :=
  { r with
    orderedNodeMap := r.orderedNodeMap.map fun e => if e.1 = pk then (e.1, newSortOrder) else e
    orderedPks := (r.orderedPks.erase pk).insertIdx targetPos pk }

/-- `process_move_operation`. -/
def processMoveOperation (r : Reordering κ) (pk : κ) (move : Option ℤ) : Reordering κ :=
  let oldSortOrder := r.sortOrderOf pk
  if move = some 0 then r
  else
    let move := move.getD 1
    let (targetPos, newSortOrder) := r.calculateNewSortOrder pk move
    let r :=
      if 0 < move then r.addToSortValueIfInRange (-1) (oldSortOrder + 1) newSortOrder
      else r.addToSortValueIfInRange 1 newSortOrder (oldSortOrder - 1)
    r.put pk targetPos newSortOrder

/-- One pass of the loop of `run`; a key that is not there is skipped. -/
def process (r : Reordering κ) (operation : κ × Option ℤ) : Reordering κ :=
  if operation.1 ∈ r.orderedNodeMap.map (·.1) then
    r.processMoveOperation operation.1 operation.2
  else r

/-- The numbers that `commit` writes: those that have changed. -/
def batch (r : Reordering κ) : List (Member κ) :=
  (r.orderedNodeMap.filter fun e => r.oldSortMap.lookup e.1 ≠ some (some e.2)).map
    fun e => ⟨e.1, some e.2⟩

/-- `commit`. -/
def commit (r : Reordering κ) (t : Table (Member κ)) : Table (Member κ) :=
  t.bulkUpdate r.batch (fun instance' m => { m with sortOrder := instance'.sortOrder })
    fun _ _ => rfl

end Reordering

/-- `perform_reordering`. -/
def performReordering (operations : List (κ × Option ℤ)) (t : Table (Member κ)) :
    Table (Member κ) :=
  (operations.foldl Reordering.process (Reordering.load t)).commit t

/-! ### The operations, and what they are for -/

/-- What is done to a collection. -/
inductive Operation (κ : Type) where
  | create (pk : κ)
  | delete (pk : κ)
  | reorder (operations : List (κ × Option ℤ))

/-- What it does to the table. -/
def step (t : Table (Member κ)) : Operation κ → Table (Member κ)
  | .create pk => save pk t
  | .delete pk => delete pk t
  | .reorder operations => performReordering operations t

/-- **What it is for**, on the list of the members: a new one goes to the end, a deleted one is taken
out, and the moves of a reordering are made one after another; a move without a number is one
step. -/
def place (l : List κ) : Operation κ → List κ
  | .create pk => if pk ∈ l then l else l ++ [pk]
  | .delete pk => l.erase pk
  | .reorder operations => operations.foldl (fun l o => moveBy o.1 (o.2.getD 1) l) l

/-! ### The numbers of a list -/

/-- The members are those of the list, and each has its position as its number. -/
structure Numbered (t : Table (Member κ)) (l : List κ) : Prop where
  nodup : l.Nodup
  perm : (t.rows.map (·.pk)).Perm l
  sortOrder : ∀ m ∈ t, m.sortOrder = some (l.idxOf m.pk : ℤ)

variable {t : Table (Member κ)} {l : List κ}

theorem Numbered.mem (h : Numbered t l) {m : Member κ} (hm : m ∈ t) : m.pk ∈ l :=
  h.perm.mem_iff.mp (List.mem_map_of_mem hm)

theorem Numbered.exists_row (h : Numbered t l) {k : κ} (hk : k ∈ l) :
    t.find? k = some ⟨k, some (l.idxOf k : ℤ)⟩ := by
  obtain ⟨m, hm, rfl⟩ := List.mem_map.mp (h.perm.mem_iff.mpr hk)
  refine Table.find?_eq_some.mpr ⟨?_, rfl⟩
  have hm' : m ∈ t := hm
  rw [← h.sortOrder m hm']
  exact hm'

theorem numbered_empty : Numbered (.empty : Table (Member κ)) [] :=
  ⟨List.nodup_nil, .nil, nofun⟩

/-- A row with the number of its position. -/
def numbered (l : List κ) (k : κ) : Member κ := ⟨k, some (l.idxOf k : ℤ)⟩

theorem Numbered.rows_perm (h : Numbered t l) : t.rows.Perm (l.map (numbered l)) := by
  have hrows : t.rows = (t.rows.map (·.pk)).map (numbered l) := by
    rw [List.map_map]
    refine ((List.map_congr_left fun m hm => ?_).trans (List.map_id _)).symm
    show (⟨m.pk, some _⟩ : Member κ) = m
    rw [← h.sortOrder m hm]
  rw [hrows]
  exact h.perm.map _

/-- Along a list the numbers grow. -/
theorem pairwise_sortKey (hl : l.Nodup) :
    (l.map (numbered l)).Pairwise fun a b => sortKey a < sortKey b := by
  refine List.pairwise_map.mpr (List.pairwise_iff_getElem.mpr ?_)
  intro i j hi hj hij
  refine Prod.Lex.toLex_lt_toLex.mpr (Or.inl ?_)
  show ((l.idxOf l[i] : ℤ) : WithTop ℤ) < ((l.idxOf l[j] : ℤ) : WithTop ℤ)
  rw [hl.idxOf_getElem i hi, hl.idxOf_getElem j hj]
  exact WithTop.coe_lt_coe.mpr (by omega)

theorem Numbered.orderBy_eq (h : Numbered t l) :
    orderBy sortKey t.rows = l.map (numbered l) :=
  orderBy_eq_of_pairwise sortKey h.rows_perm (pairwise_sortKey h.nodup)

/-- **The list is the members in order.** -/
theorem Numbered.members_eq (h : Numbered t l) : members t = l := by
  rw [members, h.orderBy_eq, List.map_map]
  exact List.map_id l

theorem Numbered.nodup_sortOrder (h : Numbered t l) : (t.rows.map (·.sortOrder)).Nodup := by
  refine (t.nodup.of_map).map_on fun m hm m' hm' heq => ?_
  have hidx : l.idxOf m.pk = l.idxOf m'.pk := by
    rw [h.sortOrder m hm, h.sortOrder m' hm'] at heq
    exact_mod_cast Option.some.inj heq
  exact Table.eq_of_pk_eq hm hm' ((List.idxOf_inj (h.mem hm)).mp hidx)

/-! ### Creating -/

theorem Numbered.getMaxSortOrder_eq (h : Numbered t l) :
    getMaxSortOrder t = if l = [] then none else some ((l.length : ℤ) - 1) := by
  have hperm : (t.rows.filterMap (·.sortOrder)).Perm (l.map fun k => (l.idxOf k : ℤ)) := by
    have hmap := h.rows_perm.filterMap (·.sortOrder)
    rw [List.filterMap_map] at hmap
    refine hmap.trans (List.Perm.of_eq ?_)
    exact congrFun (List.filterMap_eq_map' (f := fun k => (l.idxOf k : ℤ))) l
  rw [getMaxSortOrder]
  split
  · rename_i hnil
    subst hnil
    rw [List.Perm.eq_nil hperm]
    rfl
  · rename_i hnil
    have hpos : 0 < l.length := List.length_pos_of_ne_nil hnil
    refine List.max?_eq_some_iff.mpr ⟨?_, ?_⟩
    · refine hperm.mem_iff.mpr (List.mem_map.mpr ⟨l[l.length - 1], List.getElem_mem _, ?_⟩)
      rw [h.nodup.idxOf_getElem]
      omega
    · intro n hn
      obtain ⟨k, hk, rfl⟩ := List.mem_map.mp (hperm.mem_iff.mp hn)
      have hlt := List.idxOf_lt_length_of_mem hk
      omega

theorem numbered_save (h : Numbered t l) (pk : κ) : Numbered (save pk t) (place l (.create pk)) := by
  have hnumber : (match getMaxSortOrder t with
      | none => 0
      | some existingMax => existingMax + 1) = (l.length : ℤ) := by
    rw [h.getMaxSortOrder_eq]
    split_ifs with hnil
    · rw [hnil]
      rfl
    · exact sub_add_cancel _ _
  rw [save, hnumber, place]
  rcases hinsert : t.insert ⟨pk, some (l.length : ℤ)⟩ with _ | u
  · -- the key is taken
    have hmem : pk ∈ l := by
      by_contra hpk
      rw [Table.insert, dif_pos] at hinsert
      · cases hinsert
      · intro m hm heq
        have heq : m.pk = pk := heq
        exact hpk (heq ▸ h.mem hm)
    rw [if_pos hmem]
    exact h
  · obtain ⟨hrows, hfresh⟩ := Table.insert_eq_some hinsert
    have hpk : pk ∉ l := by
      intro hmem
      exact hfresh _ (Table.find?_eq_some.mp (h.exists_row hmem)).1 rfl
    rw [if_neg hpk]
    refine ⟨?_, ?_, ?_⟩
    · exact h.nodup.append (List.nodup_singleton pk) (List.disjoint_singleton.mpr hpk)
    · show (u.rows.map (·.pk)).Perm _
      rw [hrows, List.map_append]
      exact h.perm.append_right [pk]
    · intro m hm
      rw [Option.getD_some, Table.mem_def, hrows] at hm
      rcases List.mem_append.mp hm with hm | hm
      · rw [h.sortOrder m hm, List.idxOf_append_of_mem (h.mem hm)]
      · obtain rfl := List.mem_singleton.mp hm
        rw [List.idxOf_append_of_notMem hpk]
        simp

/-! ### Deleting -/

theorem numbered_delete (h : Numbered t l) (pk : κ) :
    Numbered (delete pk t) (place l (.delete pk)) := by
  rw [delete.eq_def, place]
  by_cases hpk : pk ∈ l
  · have hfind := h.exists_row hpk
    simp only [hfind]
    refine ⟨h.nodup.erase pk, ?_, ?_⟩
    · have hkeys : ((closeGap (l.idxOf pk) t).rows.map (·.pk)) = t.rows.map (·.pk) := by
        rw [closeGap, Table.rows_map, List.map_map]
        refine List.map_congr_left fun m _ => ?_
        show (if _ then _ else m : Member κ).pk = m.pk
        split <;> rfl
      have hfilter : (((closeGap (l.idxOf pk) t).delete (·.pk = pk)).rows.map (·.pk))
          = (t.rows.map (·.pk)).filter (· ≠ pk) := by
        rw [← hkeys, Table.delete, List.filter_map]
        exact congrArg (List.map _) (List.filter_congr fun m _ => by simp)
      rw [hfilter, h.nodup.erase_eq_filter]
      refine (h.perm.filter _).trans (List.Perm.of_eq (List.filter_congr fun k _ => ?_))
      rw [bne, Bool.beq_eq_decide_eq]
      simp
    · intro m' hm'
      obtain ⟨hm', hne⟩ := List.mem_filter.mp hm'
      obtain ⟨m, hm, rfl⟩ := List.mem_map.mp hm'
      have hrow := h.sortOrder m hm
      have hne : m.pk ≠ pk := by
        intro heq
        revert hne
        split <;> simp [heq]
      have herase := idxOf_erase_of_ne hne l
      rw [hrow]
      by_cases hlt : l.idxOf pk < l.idxOf m.pk
      · rw [if_pos hlt] at herase
        rw [if_pos (by simpa using hlt)]
        show some ((l.idxOf m.pk : ℤ) - 1) = some (((l.erase pk).idxOf m.pk : ℕ) : ℤ)
        rw [herase]
        congr 1
        omega
      · rw [if_neg hlt] at herase
        rw [if_neg (by simpa using hlt), hrow, herase]
  · have hfind : t.find? pk = none := by
      refine Table.find?_eq_none.mpr fun m hm heq => hpk ?_
      rw [← heq]
      exact h.mem hm
    simp only [hfind]
    rw [List.erase_of_not_mem hpk]
    exact h

/-! ### Reordering -/

/-- The map has the position of each key in the list, and the list of the reordering is that
list. -/
structure Reordering.Follows (r : Reordering κ) (ks l : List κ) : Prop where
  nodup : l.Nodup
  perm : ks.Perm l
  orderedPks : r.orderedPks = l
  orderedNodeMap : r.orderedNodeMap = ks.map fun k => (k, (l.idxOf k : ℤ))

theorem lookup_map {τ : Type} (f : κ → τ) {k : κ} :
    ∀ {ks : List κ}, k ∈ ks → (ks.map fun j => (j, f j)).lookup k = some (f k)
  | j :: ks, hk => by
    rw [List.map_cons, List.lookup_cons]
    by_cases hjk : k = j
    · subst hjk
      simp
    · rw [beq_false_of_ne hjk]
      exact lookup_map f ((List.mem_cons.mp hk).resolve_left hjk)

omit [LinearOrder κ] in
/-- With numbers from zero up nobody is without one, so nobody gets one. -/
theorem fillNulls_map (f : κ → ℤ) (previous : ℤ) (ks : List κ) :
    fillNulls previous (ks.map fun k => (k, some (f k))) = ks.map fun k => (k, f k) := by
  induction ks generalizing previous with
  | nil => rfl
  | cons k ks ih =>
    show (k, f k) :: fillNulls (f k) (ks.map fun k => (k, some (f k))) = _
    rw [ih, List.map_cons]

theorem Numbered.oldSortMap_eq (h : Numbered t l) :
    (orderBy sortKey t.rows).map (fun m => (m.pk, m.sortOrder))
      = l.map fun k => (k, some (l.idxOf k : ℤ)) := by
  rw [h.orderBy_eq, List.map_map]
  rfl

theorem Numbered.follows_load (h : Numbered t l) : (Reordering.load t).Follows l l where
  nodup := h.nodup
  perm := .refl l
  orderedPks := by
    show ((orderBy sortKey t.rows).map fun m => (m.pk, m.sortOrder)).map (·.1) = l
    rw [h.oldSortMap_eq, List.map_map]
    exact List.map_id l
  orderedNodeMap := by
    show fillNulls 0 ((orderBy sortKey t.rows).map _) = _
    rw [h.oldSortMap_eq, fillNulls_map]

namespace Reordering

variable {r : Reordering κ} {ks : List κ} {pk : κ}

theorem Follows.sortOrderOf_eq (h : r.Follows ks l) (hpk : pk ∈ l) :
    r.sortOrderOf pk = l.idxOf pk := by
  rw [sortOrderOf, h.orderedNodeMap, lookup_map _ (h.perm.mem_iff.mpr hpk)]
  rfl

/-- The number found at the target is the position itself. -/
theorem Follows.calculateNewSortOrder_eq (h : r.Follows ks l) (hpk : pk ∈ l) (move : ℤ) :
    r.calculateNewSortOrder pk move = (clampIdx l.length (l.idxOf pk + move),
      (clampIdx l.length (l.idxOf pk + move) : ℤ)) := by
  have hlt := clampIdx_lt (List.length_pos_of_mem hpk) (l.idxOf pk + move)
  have htarget : (r.orderedPks[clampIdx l.length (l.idxOf pk + move)]?.map r.sortOrderOf).getD 0
      = (clampIdx l.length (l.idxOf pk + move) : ℤ) := by
    rw [h.orderedPks, List.getElem?_eq_getElem hlt, Option.map_some, Option.getD_some,
      h.sortOrderOf_eq (List.getElem_mem hlt), h.nodup.idxOf_getElem]
  rw [← h.orderedPks] at htarget ⊢
  exact Prod.ext rfl htarget

/-- Shifting the numbers between the two places and putting the member there, key by key. -/
theorem Follows.put (h : r.Follows ks l) (hpk : pk ∈ l) {move shift start stop : ℤ}
    (hshift : ∀ b ∈ l, b ≠ pk → ((moveBy pk move l).idxOf b : ℤ)
      = l.idxOf b + if start ≤ l.idxOf b ∧ (l.idxOf b : ℤ) ≤ stop then shift else 0) :
    ((r.addToSortValueIfInRange shift start stop).put pk
      (clampIdx l.length (l.idxOf pk + move)) (clampIdx l.length (l.idxOf pk + move))).Follows
        ks (moveBy pk move l) := by
  refine ⟨(moveBy_perm pk move l).nodup_iff.mpr h.nodup, h.perm.trans (moveBy_perm pk move l).symm,
    ?_, ?_⟩
  · show (r.orderedPks.erase pk).insertIdx _ pk = _
    rw [h.orderedPks, moveBy, if_pos hpk]
  · show (r.orderedNodeMap.map _).map _ = _
    rw [h.orderedNodeMap, List.map_map, List.map_map]
    refine List.map_congr_left fun b hb => ?_
    have hb : b ∈ l := h.perm.mem_iff.mp hb
    by_cases hne : b = pk
    · subst hne
      have hself := idxOf_moveBy_self h.nodup hb move
      simp only [Function.comp_apply]
      split <;> simp [hself]
    · have hother := hshift b hb hne
      simp only [Function.comp_apply]
      split
      · rename_i hrange
        rw [if_pos hrange] at hother
        rw [hother]
      · rename_i hrange
        rw [if_neg hrange, add_zero] at hother
        rw [hother]

/-- **One move.** -/
theorem Follows.processMoveOperation (h : r.Follows ks l) (hpk : pk ∈ l) (move : Option ℤ) :
    (r.processMoveOperation pk move).Follows ks (moveBy pk (move.getD 1) l) := by
  rw [Reordering.processMoveOperation]
  by_cases hzero : move = some 0
  · subst hzero
    rw [if_pos rfl]
    show r.Follows ks (moveBy pk 0 l)
    rw [moveBy_zero]
    exact h
  rw [if_neg hzero]
  generalize hoffset : move.getD 1 = offset
  have hlt := List.idxOf_lt_length_of_mem hpk
  simp only [h.calculateNewSortOrder_eq hpk, h.sortOrderOf_eq hpk]
  split
  · rename_i hpos
    refine h.put hpk fun b _ hne => ?_
    -- the others between the two places move up
    have hmoved := idxOf_moveBy_of_ne hpk hne offset
    have htarget : clampIdx l.length (l.idxOf pk + offset) ≥ l.idxOf pk := by
      rw [clampIdx]
      omega
    split_ifs at hmoved ⊢ <;> omega
  · rename_i hneg
    refine h.put hpk fun b _ hne => ?_
    -- the others between the two places move down
    have hmoved := idxOf_moveBy_of_ne hpk hne offset
    have htarget : clampIdx l.length (l.idxOf pk + offset) ≤ l.idxOf pk := by
      rw [clampIdx]
      omega
    split_ifs at hmoved ⊢ <;> omega

theorem Follows.process (h : r.Follows ks l) (operation : κ × Option ℤ) :
    (r.process operation).Follows ks (moveBy operation.1 (operation.2.getD 1) l) := by
  have hkeys : r.orderedNodeMap.map (·.1) = ks := by
    rw [h.orderedNodeMap, List.map_map]
    exact List.map_id ks
  rw [Reordering.process, hkeys]
  by_cases hmem : operation.1 ∈ ks
  · rw [if_pos hmem]
    exact h.processMoveOperation (h.perm.mem_iff.mp hmem) operation.2
  · have hnot : operation.1 ∉ l := fun hl => hmem (h.perm.mem_iff.mpr hl)
    rw [if_neg hmem, moveBy, if_neg hnot]
    exact h

theorem oldSortMap_process (r : Reordering κ) (operation : κ × Option ℤ) :
    (r.process operation).oldSortMap = r.oldSortMap := by
  rw [Reordering.process]
  split
  · rw [Reordering.processMoveOperation]
    split
    · rfl
    · dsimp only
      split <;> rfl
  · rfl

/-- **The moves of a reordering**, one after another. -/
theorem Follows.processAll (operations : List (κ × Option ℤ)) (h : r.Follows ks l) :
    (operations.foldl Reordering.process r).Follows ks (place l (.reorder operations)) ∧
      (operations.foldl Reordering.process r).oldSortMap = r.oldSortMap := by
  induction operations generalizing r l with
  | nil => exact ⟨h, rfl⟩
  | cons operation operations ih =>
    obtain ⟨hfollows, hold⟩ := ih (h.process operation)
    exact ⟨hfollows, hold.trans (oldSortMap_process r operation)⟩

end Reordering

/-- Only numbers that have changed are written, and then all have the new ones. -/
theorem numbered_commit {r : Reordering κ} {l' : List κ} (h : Numbered t l)
    (hfollows : r.Follows l l')
    (hold : r.oldSortMap = l.map fun k => (k, some (l.idxOf k : ℤ))) :
    Numbered (r.commit t) l' := by
  refine ⟨hfollows.nodup, ?_, ?_⟩
  · have hkeys : (r.commit t).rows.map (·.pk) = t.rows.map (·.pk) :=
      Table.pks_bulkUpdate t _ _ _
    rw [hkeys]
    exact h.perm.trans hfollows.perm
  · intro m' hm'
    rw [Table.mem_iff_find?, Reordering.commit, Table.find?_bulkUpdate] at hm'
    obtain ⟨m, hfind, hm'⟩ := Option.map_eq_some_iff.mp hm'
    obtain ⟨hm, hpk⟩ := Table.find?_eq_some.mp hfind
    have hpk : m.pk = m'.pk := hpk
    have hmem := h.mem hm
    split at hm'
    · -- its number has changed
      rename_i i hi
      obtain ⟨e, he, rfl⟩ := List.mem_map.mp (List.mem_of_find?_eq_some hi)
      have hkey : e.1 = m'.pk := by simpa using List.find?_some hi
      have hentry := (List.mem_filter.mp he).1
      rw [hfollows.orderedNodeMap] at hentry
      obtain ⟨k, -, rfl⟩ := List.mem_map.mp hentry
      have hkey : k = m.pk := hkey.trans hpk.symm
      rw [← hm']
      show some (l'.idxOf k : ℤ) = some (l'.idxOf m.pk : ℤ)
      rw [hkey]
    · -- the number of this member is not written, so it has not changed
      rename_i hnone
      subst hm'
      have hentry : (m.pk, (l'.idxOf m.pk : ℤ)) ∈ r.orderedNodeMap := by
        rw [hfollows.orderedNodeMap]
        exact List.mem_map_of_mem hmem
      have hsame : r.oldSortMap.lookup m.pk = some (some (l'.idxOf m.pk : ℤ)) := by
        by_contra hchanged
        have hbatch : (⟨m.pk, some (l'.idxOf m.pk : ℤ)⟩ : Member κ) ∈ r.batch :=
          List.mem_map.mpr ⟨_, List.mem_filter.mpr ⟨hentry, decide_eq_true hchanged⟩, rfl⟩
        exact List.find?_eq_none.mp hnone _ hbatch (decide_eq_true rfl)
      rw [hold, lookup_map _ hmem] at hsame
      rw [h.sortOrder m hm]
      exact Option.some.inj hsame

theorem numbered_performReordering (h : Numbered t l) (operations : List (κ × Option ℤ)) :
    Numbered (performReordering operations t) (place l (.reorder operations)) := by
  obtain ⟨hfollows, hold⟩ := h.follows_load.processAll operations
  exact numbered_commit h hfollows (hold.trans h.oldSortMap_eq)

/-! ### Runs -/

theorem numbered_step (h : Numbered t l) (op : Operation κ) : Numbered (step t op) (place l op) := by
  cases op with
  | create pk => exact numbered_save h pk
  | delete pk => exact numbered_delete h pk
  | reorder operations => exact numbered_performReordering h operations

theorem numbered_run (h : Numbered t l) (ops : List (Operation κ)) :
    Numbered (Runs.run step t ops) (Runs.run place l ops) := by
  induction ops generalizing t l with
  | nil => exact h
  | cons op ops ih => exact ih (numbered_step h op)

/-- **Sort positions stay consistent.** In every state that a run from the empty collection reaches
all members have numbers, and different ones, and the next operation does to the list of the members
what it is for. -/
theorem members_step (ops : List (Operation κ)) (op : Operation κ) :
    ((Runs.run step .empty ops).rows.map (·.sortOrder)).Nodup ∧
      (∀ m ∈ Runs.run step .empty ops, m.sortOrder ≠ none) ∧
      members (step (Runs.run step .empty ops) op)
        = place (members (Runs.run step .empty ops)) op := by
  have h := numbered_run numbered_empty ops
  refine ⟨h.nodup_sortOrder, ?_, ?_⟩
  · intro m hm hnone
    have hnumber := h.sortOrder m hm
    rw [hnone] at hnumber
    cases hnumber
  · rw [h.members_eq]
    exact (numbered_step h op).members_eq

end Sortable

end Aixinwu
