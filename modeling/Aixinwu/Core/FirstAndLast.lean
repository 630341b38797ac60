import Aixinwu.Core.Pagination
import Mathlib.Data.List.DropRight

/-!
# The last of the first rows

`first` and `last` together ask for the last `l` of the first `f` rows, and with no cursor. That the
two can be combined is what the connections of this shop allow; `first` decides how many rows are read
and where the page ends, `last` where it begins.

The beginning is computed from the two numbers alone: it is at `f - l`, as if there were `f` rows, and
where `l` is larger the difference is negative and counted from the end of what was read, which is one
row more than `f` if there is one. So on a short table rows are left out that are among the last, and
where `l` is larger than `f` rows are left out though all are asked for. Whether there is a page before
is taken from the cursor, which there is none of.

## Main definitions

* `LastOfFirst` — the page that is asked for

## Main results

* `slice_eq_rtake_iff` — when the rows are those
* `lastOfFirst_iff`
-/

namespace Aixinwu

namespace Connections

variable {V ρ : Type} {f l : ℕ}

/-- **The page that is asked for**: the last `l` of the first `f` rows, whether there are more rows,
and whether some of the first `f` are cut off in front. -/
structure LastOfFirst (rows : List ρ) (f l : ℕ) (page : Connection ρ V) : Prop where
  nodes : page.edges.map (·.node) = (rows.take f).rtake l
  hasNextPage : page.hasNextPage = decide (f < rows.length)
  hasPreviousPage : page.hasPreviousPage = decide (l < (rows.take f).length)

/-- Where two ends of a list are the same. -/
theorem drop_eq_drop_iff {rows : List ρ} {i j : ℕ} :
    rows.drop i = rows.drop j ↔ i = j ∨ (rows.length ≤ i ∧ rows.length ≤ j) := by
  constructor
  · intro h
    have hlength := congrArg List.length h
    rw [List.length_drop, List.length_drop] at hlength
    omega
  · rintro (rfl | ⟨hi, hj⟩)
    · rfl
    · rw [List.drop_eq_nil_of_le hi, List.drop_eq_nil_of_le hj]

/-- Where the page begins, among the rows that are read. -/
def begin (n f l : ℕ) : ℕ := if l ≤ f then f - l else min n (f + 1) + f - l

/-- What is sliced from the rows that are read. -/
theorem slice_eq (rows : List ρ) (f l : ℕ) :
    slice (rows.take (f + 1)) ((f : ℤ) - l) (some f) = (rows.take f).drop (begin rows.length f l) := by
  have htake : (rows.take (f + 1)).take f = rows.take f := by
    rw [List.take_take, min_eq_left (Nat.le_succ f)]
  rw [slice, Option.map_some, Option.getD_some, htake, begin, List.length_take]
  congr 1
  by_cases hle : l ≤ f
  · rw [if_neg (by omega), if_pos hle]
    omega
  · rw [if_pos (by omega), if_neg hle]
    omega

/-- **The rows are those that are asked for** if there are none or all that are counted on, or if the
page is to begin with the first row, and does. -/
theorem slice_eq_rtake_iff {rows : List ρ} (hf : 1 ≤ f) (hl : 1 ≤ l) :
    slice (rows.take (f + 1)) ((f : ℤ) - l) (some f) = (rows.take f).rtake l ↔
      rows = [] ∨ l = f ∨ (l < f ∧ f ≤ rows.length) ∨ f + min rows.length (f + 1) ≤ l := by
  rw [slice_eq, List.rtake_eq_reverse_take_reverse]
  rw [List.reverse_take, List.reverse_reverse, List.length_reverse, drop_eq_drop_iff]
  rw [List.length_take, ← List.length_eq_zero_iff, begin]
  by_cases hle : l ≤ f
  · rw [if_pos hle]
    omega
  · rw [if_neg hle]
    omega

variable [LinearOrder V]

/-- Both arguments read the table in the order of the first rows, and the page ends with as many as
are asked for by `first`. -/
theorem createConnectionSlice_first_last (s : Listing ρ V) (hf : 1 ≤ f) (hl : 1 ≤ l) :
    ∃ page, createConnectionSlice s.field s.modelOrdering s.table
        { sortBy := s.sortBy
          first := some f
          last := some l } = .ok page ∧
      page.edges.map (·.node)
        = slice ((s.rows false).take (f + 1)) ((f : ℤ) - l) (some f) ∧
      page.hasNextPage = decide (f < (s.rows false).length) ∧ page.hasPreviousPage = false := by
  have hfirst : truthy (some (f : ℤ)) = true := truthy_natCast hf
  have hlast : truthy (some (l : ℤ)) = true := truthy_natCast hl
  have hvalid : validateConnectionArgs
      ({ sortBy := s.sortBy, first := some (f : ℤ), last := some (l : ℤ) } : Args V) = .ok () := by
    have hnegf : ¬ ((f : ℤ) < 0) := by omega
    have hnegl : ¬ ((l : ℤ) < 0) := by omega
    simp [validateConnectionArgs, truthy, hnegf, hnegl]
  have hslice : createConnectionSlice s.field s.modelOrdering s.table
      { sortBy := s.sortBy, first := some (f : ℤ), last := some (l : ℤ) }
      = connectionFromQuerysetSlice s.field (s.rows false)
        { sortBy := s.sortBy, first := some (f : ℤ), last := some (l : ℤ) } s.sorting := by
    obtain ⟨field, modelOrdering, sortBy, table, columns⟩ := s
    cases sortBy <;> rfl
  rw [hslice, connectionFromQuerysetSlice, hvalid]
  simp only [Option.none_or, hfirst, if_true, Int.toNat_natCast]
  refine ⟨_, rfl, ?_⟩
  rw [getEdgesForConnection]
  simp only [hfirst, hlast, if_true, Option.getD_some, Int.toNat_natCast, List.map_map]
  refine ⟨?_, ?_, rfl⟩
  · exact List.map_id _
  · rw [List.length_take]
    refine decide_eq_decide.mpr ?_
    omega

/-- **The last of the first rows** are what `first` and `last` together return, with the right flags,
exactly if the table is empty, the two numbers are the same, or `last` is so large that the beginning,
counted from the end of what was read, is the first row all the same. -/
theorem lastOfFirst_iff (s : Listing ρ V) (hf : 1 ≤ f) (hl : 1 ≤ l) :
    (∃ page, createConnectionSlice s.field s.modelOrdering s.table
        { sortBy := s.sortBy
          first := some f
          last := some l } = .ok page ∧ LastOfFirst (s.rows false) f l page) ↔
      s.table = [] ∨ l = f ∨ f + min s.table.length (f + 1) ≤ l := by
  obtain ⟨page, hpage, hnodes, hnext, hprevious⟩ := createConnectionSlice_first_last s hf hl
  have hlength : (s.rows false).length = s.table.length := (sortRows_perm _ _).length_eq
  have hempty : s.rows false = [] ↔ s.table = [] := by
    rw [← List.length_eq_zero_iff, hlength, List.length_eq_zero_iff]
  have hiff : LastOfFirst (s.rows false) f l page ↔
      slice ((s.rows false).take (f + 1)) ((f : ℤ) - l) (some f) = ((s.rows false).take f).rtake l ∧
        ¬ l < min f s.table.length := by
    constructor
    · intro h
      refine ⟨hnodes.symm.trans h.nodes, of_decide_eq_false ?_⟩
      rw [← hlength, ← List.length_take, ← h.hasPreviousPage, hprevious]
    · rintro ⟨hrows, hfew⟩
      refine ⟨hnodes.trans hrows, hnext, hprevious.trans (decide_eq_false ?_).symm⟩
      rwa [List.length_take, hlength]
  rw [hpage]
  simp only [Except.ok.injEq, exists_eq_left', hiff]
  rw [slice_eq_rtake_iff hf hl, hempty, hlength, ← List.length_eq_zero_iff]
  omega

/-- Two rows, of which the last two of the first five are asked for. -/
def twoRows : Listing ℕ ℕ where
  field row _ := some (.number row)
  modelOrdering := [("number", false)]
  table := [1, 2]

/-- **No row is returned** of a table of two when the last two of the first five are asked for. -/
theorem lastOfFirst_not_always :
    ¬ ∀ f l : ℕ, 1 ≤ f → 1 ≤ l → ∃ page,
      createConnectionSlice twoRows.field twoRows.modelOrdering twoRows.table
        { sortBy := twoRows.sortBy
          first := some f
          last := some l } = .ok page ∧ LastOfFirst (twoRows.rows false) f l page := by
  intro h
  obtain ⟨page, hpage, hright⟩ := h 5 2 (by omega) (by omega)
  have hnodes := hright.nodes
  obtain rfl := Except.ok.inj hpage
  revert hnodes
  decide

/-- The last two of the first two are both of them. -/
theorem lastOfFirst_iff_two :
    (∃ page, createConnectionSlice twoRows.field twoRows.modelOrdering twoRows.table
        { sortBy := twoRows.sortBy
          first := some (2 : ℕ)
          last := some (2 : ℕ) } = .ok page ∧ LastOfFirst (twoRows.rows false) 2 2 page) :=
  (lastOfFirst_iff twoRows (by omega) (by omega)).mpr (.inr (.inl rfl))

end Connections

end Aixinwu
