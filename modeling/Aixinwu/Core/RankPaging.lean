import Aixinwu.Core.Pagination
import Mathlib.Tactic.Linarith

/-!
# Paging through search results

Search results are sorted by `search_rank` and, where ranks are equal, by `id`, both in one direction.
The filter of a cursor has a fast path of its own for these two fields: of the rows with a rank close
to that of the cursor it takes those on the *other* side of its id, while every other pair of fields is
compared the way it is sorted. So a page that ends with a row whose rank another row has too is
followed by the rows of that rank that have been shown, and not by those that have not.

Ranks that are not equal are further apart than what counts as close, so equal ranks are the only
close ones.

## Main definitions

* `Hit`, `hits` — rows with a rank and an id, and the listing of them
* `PagesEveryRow`
* `EndsTied` — a page ends with a row that shares its rank

## Main results

* `pagesEveryRow_iff`
* `pagesEveryRow_hits_iff`
-/

namespace Aixinwu

namespace Connections

variable {V ρ : Type} [LinearOrder V]

/-! ### The client, by the concatenation of its pages -/

/-- **The pages are the rows**, one after another: forwards in the order of the sort, and backwards in
the reverse order. -/
structure PagesEveryRow (s : Listing ρ V) (n : ℕ) : Prop where
  forward : ∃ fuel pages,
    followLinks (·.hasNextPage) (·.endCursor) (s.forward n) fuel none = some pages ∧
      pages.flatMap (fun page => page.edges.map (·.node)) = s.rows false
  backward : ∃ fuel pages,
    followLinks (·.hasPreviousPage) (·.startCursor) (s.backward n) fuel none = some pages ∧
      pages.flatMap (fun page => (page.edges.map (·.node)).reverse) = (s.rows false).reverse

/-- Pages that are the rows say rightly whether there are more. -/
theorem pagesEveryRow_iff {s : Listing ρ V} {n : ℕ} (hn : 0 < n) (hnodup : s.table.Nodup)
    (hreverse : s.rows true = (s.rows false).reverse) : PagesEveryRow s n ↔ VisitsEveryRow s n := by
  have hsame : ∀ backward : Bool,
      (∃ fuel pages, Paging.follow (s.rows backward) (s.filterOf backward) n fuel none = some pages
        ∧ pages.flatMap (·.records) = s.rows backward) ↔
      ∃ fuel pages, Paging.follow (s.rows backward) (s.filterOf backward) n fuel none = some pages
        ∧ Paging.Visits pages (s.rows backward) := by
    intro backward
    have hrows : (s.rows backward).Nodup := (sortRows_perm _ _).nodup_iff.mpr hnodup
    refine exists_congr fun fuel => exists_congr fun pages => and_congr_right fun hfollow => ?_
    refine ⟨fun hpages => ?_, Paging.flatMap_of_visits⟩
    have hvisits := @Paging.visits_of_flatMap _ _ [] _ _ _ hn hrows _ _ hfollow hpages.symm
    rwa [hpages] at hvisits
  have hforward := (answers_forward s hn).exists_iff hn
    fun pages => pages.flatMap (·.records) = s.rows false
  have hbackward := (answers_backward s hn).exists_iff hn
    fun pages => pages.flatMap (·.records) = s.rows true
  simp only [List.flatMap_map] at hforward hbackward
  rw [visitsEveryRow_eq s hn, ← hreverse, ← hsame, ← hsame, ← hforward, ← hbackward, hreverse]
  exact ⟨fun h => ⟨h.forward, h.backward⟩, fun h => ⟨h.1, h.2⟩⟩

/-! ### Search results -/

/-- A row with a search rank and an id. -/
structure Hit (V : Type) where
  searchRank : ℚ
  id : V
deriving DecidableEq, Repr

/-- The fields of a row. -/
def Hit.field (x : Hit V) (name : String) : Option (Value V) :=
  if name = "search_rank" then some (.number x.searchRank)
  else if name = "id" then some (.other x.id)
  else none

theorem not_ordered_by_rank :
    ([] : List (String × Bool)).map (·.1) ≠ ["search_rank", "id"] := by
  decide

/-- The rows sorted by `OrderSortField.RANK`. -/
def hits (rows : List (Hit V)) (descending : Bool) : Listing (Hit V) V where
  field := Hit.field
  sortBy := some { fields := ["search_rank", "id"], descending := descending }
  table := rows
  columns := not_ordered_by_rank

/-- Ranks are equal or differ by more than what counts as close. -/
def RanksApart (rows : List (Hit V)) : Prop :=
  ∀ x ∈ rows, ∀ y ∈ rows, x.searchRank = y.searchRank ∨ 2 * epsilon < |x.searchRank - y.searchRank|

/-- **A page other than the last ends with a row** whose rank another row has too. -/
def EndsTied (rows : List (Hit V)) (n : ℕ) : Prop :=
  ∃ seen c rest, rows = seen ++ c :: rest ∧ rest ≠ [] ∧ n ∣ seen.length + 1 ∧
    ∃ x ∈ seen ++ rest, x.searchRank = c.searchRank

/-- `a` comes before `b`. -/
def Hit.Before (descending : Bool) (a b : Hit V) : Prop :=
  if descending then b.searchRank < a.searchRank ∨ (a.searchRank = b.searchRank ∧ b.id < a.id)
  else a.searchRank < b.searchRank ∨ (a.searchRank = b.searchRank ∧ a.id < b.id)

section Hits

variable {rows : List (Hit V)} {descending : Bool} {n : ℕ} {a b c x : Hit V}

omit [LinearOrder V] in
@[simp] theorem Hit.field_searchRank : x.field "search_rank" = some (.number x.searchRank) := rfl

omit [LinearOrder V] in
@[simp] theorem Hit.field_id : x.field "id" = some (.other x.id) := rfl

omit [LinearOrder V] in
theorem Value.other_lt_other [LinearOrder V] {v w : V} :
    (Value.other v : Value V) < Value.other w ↔ v < w := Sum.Lex.inr_lt_inr_iff

/-- What the sort puts first. -/
theorem Hit.precedes_iff : precedes Hit.field [("search_rank", descending), ("id", descending)] a b
    = true ↔ a.Before descending b := by
  by_cases hrank : a.searchRank = b.searchRank
  · by_cases hid : a.id = b.id
    · cases descending <;> simp [precedes, Hit.Before, hrank, hid]
    · cases descending <;>
        simp [precedes, Hit.Before, hrank, hid, nullsLast, Value.other_lt_other]
  · cases descending <;> simp [precedes, Hit.Before, hrank, nullsLast]

/-- What the filter lets through: further ranks, and of its own rank the ids on the other side. -/
theorem Hit.rankedBehind_iff
    (hapart : x.searchRank = c.searchRank ∨ 2 * epsilon < |x.searchRank - c.searchRank|) :
    RankedBehind Hit.field descending c x ↔
      if descending then
        (x.searchRank = c.searchRank ∧ c.id < x.id) ∨ x.searchRank < c.searchRank
      else (x.searchRank = c.searchRank ∧ x.id < c.id) ∨ c.searchRank < x.searchRank := by
  have hepsilon : 0 < epsilon := by norm_num [epsilon]
  have hclose : c.searchRank - epsilon ≤ x.searchRank ∧ x.searchRank ≤ c.searchRank + epsilon
      ↔ x.searchRank = c.searchRank := by
    constructor
    · rintro ⟨hlow, hhigh⟩
      refine hapart.resolve_right (not_lt.mpr ?_)
      exact abs_le.mpr ⟨by linarith, by linarith⟩
    · intro heq
      exact ⟨by linarith, by linarith⟩
  have hfar : ∀ p q : ℚ, (p = q ∨ 2 * epsilon < |p - q|) → (p < q - epsilon ↔ p < q) := by
    intro p q hpq
    refine ⟨fun h => by linarith, fun h => ?_⟩
    rcases hpq with rfl | hpq
    · exact absurd h (lt_irrefl _)
    · rw [abs_of_neg (by linarith)] at hpq
      linarith
  have hlow := hfar _ _ hapart
  have hhigh := hfar c.searchRank x.searchRank (by rwa [eq_comm, abs_sub_comm])
  have hhigh' : c.searchRank + epsilon < x.searchRank ↔ c.searchRank < x.searchRank := by
    rw [← hhigh, lt_sub_iff_add_lt]
  rw [sub_le_iff_le_add] at hclose
  cases descending <;>
    simp [RankedBehind, isGreater, Value.other_lt_other, hclose, hlow, hhigh']

/-- Where the sort has put a row before another. -/
theorem Hit.rankedBehind_of_before (h : c.Before descending x)
    (hapart : x.searchRank = c.searchRank ∨ 2 * epsilon < |x.searchRank - c.searchRank|) :
    RankedBehind Hit.field descending c x ↔ x.searchRank ≠ c.searchRank := by
  rw [Hit.rankedBehind_iff hapart]
  cases descending
  · rcases h with hlt | ⟨heq, hlt⟩
    · simp [hlt, hlt.ne']
    · simp [heq, hlt.not_gt]
  · rcases h with hlt | ⟨heq, hlt⟩
    · simp [hlt, hlt.ne]
    · simp [heq, hlt.not_gt]

theorem Hit.rankedBehind_of_behind (h : x.Before descending c)
    (hapart : x.searchRank = c.searchRank ∨ 2 * epsilon < |x.searchRank - c.searchRank|) :
    RankedBehind Hit.field descending c x ↔ x.searchRank = c.searchRank := by
  rw [Hit.rankedBehind_iff hapart]
  cases descending
  · rcases h with hlt | ⟨heq, hlt⟩
    · simp [hlt.not_gt, hlt.ne]
    · simp [heq, hlt]
  · rcases h with hlt | ⟨heq, hlt⟩
    · simp [hlt.not_gt, hlt.ne']
    · simp [heq, hlt]

theorem Hit.not_rankedBehind_self : ¬ RankedBehind Hit.field descending c c := by
  rw [Hit.rankedBehind_iff (.inl rfl)]
  cases descending <;> simp

/-- Between rows of one rank there are only rows of that rank. -/
theorem Hit.searchRank_eq_of_between (h : c.Before descending x) (h' : x.Before descending a)
    (heq : a.searchRank = c.searchRank) : x.searchRank = c.searchRank := by
  cases descending
  · rcases h with hlt | ⟨hcx, -⟩
    · rcases h' with hlt' | ⟨hxa, -⟩
      · exact absurd (hlt.trans hlt') (heq ▸ lt_irrefl _)
      · exact hxa.trans heq
    · exact hcx.symm
  · rcases h with hlt | ⟨hcx, -⟩
    · rcases h' with hlt' | ⟨hxa, -⟩
      · exact absurd (hlt'.trans hlt) (heq ▸ lt_irrefl _)
      · exact hxa.trans heq
    · exact hcx.symm

/-! ### Ties at page ends -/

omit [LinearOrder V] in
/-- Different ids tell the rows apart. -/
theorem told_hits (hids : (rows.map (·.id)).Nodup) : Told (hits rows descending) where
  apart := by
    refine (List.pairwise_map.mp hids).imp fun {a b} hne => ⟨"id", by simp [hits, Listing.sorting], ?_⟩
    simpa [hits] using hne
  last a _ := ⟨"id", rfl, by simp [hits]⟩

/-- The rows stand in the order of the sort, strictly. -/
theorem pairwise_before (hids : (rows.map (·.id)).Nodup) (backward : Bool) :
    ((hits rows descending).rows backward).Pairwise (Hit.Before (descending != backward)) :=
  (sortRows_strict ((told_hits hids).apart_uniform backward)).imp fun {_ _} h =>
    Hit.precedes_iff.mp h

theorem mem_rows_hits {backward : Bool} : x ∈ (hits rows descending).rows backward ↔ x ∈ rows :=
  (sortRows_perm _ _).mem_iff

/-- **Ranks and ids separate the rows** unless a page ends with a row that shares its rank. -/
theorem ranksSeparate_hits_iff (hn : 0 < n) (hids : (rows.map (·.id)).Nodup)
    (hapart : RanksApart rows) : RanksSeparate (hits rows descending) n ↔
      ∀ backward, ¬ EndsTied ((hits rows descending).rows backward) n := by
  -- where a page ends, seen from its last row
  have hend : ∀ backward seen c rest, (hits rows descending).rows backward = seen ++ c :: rest →
      (∀ x ∈ seen, x.Before (descending != backward) c ∧
        (x.searchRank = c.searchRank ∨ 2 * epsilon < |x.searchRank - c.searchRank|)) ∧
      (∀ x ∈ rest, c.Before (descending != backward) x ∧
        (x.searchRank = c.searchRank ∨ 2 * epsilon < |x.searchRank - c.searchRank|)) ∧
      rest.Pairwise (Hit.Before (descending != backward)) := by
    intro backward seen c rest hrows
    have hpairwise : ((hits rows descending).rows backward).Pairwise _ := pairwise_before hids backward
    rw [hrows, List.pairwise_append, List.pairwise_cons] at hpairwise
    obtain ⟨-, ⟨hrest, hpairwise⟩, hseen⟩ := hpairwise
    have hmem : ∀ x ∈ seen ++ c :: rest, x ∈ rows := fun x hx => mem_rows_hits.mp (hrows ▸ hx)
    have hc := hmem c (by simp)
    exact ⟨fun x hx => ⟨hseen x hx c List.mem_cons_self, hapart x (hmem x (by simp [hx])) c hc⟩,
      fun x hx => ⟨hrest x hx, hapart x (hmem x (by simp [hx])) c hc⟩, hpairwise⟩
  refine forall_congr' fun backward => ⟨fun hsep => ?_, fun htied => ?_⟩
  · rintro ⟨seen, c, rest, hrows, hrest, hpages, x, hx, heq⟩
    obtain ⟨hseen, hnext, -⟩ := hsep seen c rest hrows hrest hpages
    obtain ⟨hbefore, hbehind, hpairwise⟩ := hend backward seen c rest hrows
    rcases List.mem_append.mp hx with hx | hx
    · obtain ⟨hlt, hclose⟩ := hbefore x hx
      exact hseen x (List.mem_append_left _ hx) ((Hit.rankedBehind_of_behind hlt hclose).mpr heq)
    · -- then the row that comes next is of that rank, too
      obtain ⟨y, rest, rfl⟩ := List.exists_cons_of_ne_nil hrest
      obtain ⟨m, rfl⟩ : ∃ m, n = m + 1 := ⟨n - 1, by omega⟩
      obtain ⟨hlt, hclose⟩ := hbehind y List.mem_cons_self
      have hy := (Hit.rankedBehind_of_before hlt hclose).mp (hnext y (by simp))
      rcases List.mem_cons.mp hx with rfl | hx
      · exact hy heq
      · have hyx := (List.pairwise_cons.mp hpairwise).1 x hx
        exact hy (Hit.searchRank_eq_of_between hlt hyx heq)
  · intro seen c rest hrows hrest hpages
    obtain ⟨hbefore, hbehind, -⟩ := hend backward seen c rest hrows
    have hne : ∀ x ∈ seen ++ rest, x.searchRank ≠ c.searchRank := fun x hx heq =>
      htied ⟨seen, c, rest, hrows, hrest, hpages, x, hx, heq⟩
    have hrest' : ∀ x ∈ rest, RankedBehind Hit.field (descending != backward) c x := by
      intro x hx
      obtain ⟨hlt, hclose⟩ := hbehind x hx
      exact (Hit.rankedBehind_of_before hlt hclose).mpr (hne x (List.mem_append_right _ hx))
    refine ⟨fun x hx hback => ?_, fun x hx => hrest' x (List.mem_of_mem_take hx), fun hmore => ?_⟩
    · rcases List.mem_append.mp hx with hx | hx
      · obtain ⟨hlt, hclose⟩ := hbefore x hx
        exact hne x (List.mem_append_left _ hx) ((Hit.rankedBehind_of_behind hlt hclose).mp hback)
      · rw [List.mem_singleton.mp hx] at hback
        exact Hit.not_rankedBehind_self hback
    · obtain ⟨x, hx⟩ := List.exists_mem_of_ne_nil _ hmore
      exact ⟨x, hx, hrest' x (List.mem_of_mem_drop hx)⟩

/-- **Paging through search results** gives every row once, in the order of the sort and in the
reverse order, exactly if no page but the last ends with a row whose rank another row has. -/
theorem pagesEveryRow_hits_iff (rows : List (Hit V)) (descending : Bool) (n : ℕ) (hn : 0 < n)
    (hids : (rows.map (·.id)).Nodup) (hapart : RanksApart rows) :
    PagesEveryRow (hits rows descending) n ↔
      ∀ backward, ¬ EndsTied ((hits rows descending).rows backward) n := by
  have htold : Told (hits rows descending) := told_hits hids
  have hreverse : (hits rows descending).rows true = ((hits rows descending).rows false).reverse :=
    htold.uniformRows_reverse
  rw [pagesEveryRow_iff hn hids.of_map hreverse, htold.visitsEveryRow_of_rank hn rfl,
    ranksSeparate_hits_iff hn hids hapart]

omit [LinearOrder V] in
/-- Rows of different ranks are never tied. -/
theorem not_endsTied_of_nodup (hranks : (rows.map (·.searchRank)).Nodup) : ¬ EndsTied rows n := by
  rintro ⟨seen, c, rest, rfl, -, -, x, hx, heq⟩
  rw [List.map_append, List.map_cons, List.nodup_middle, List.nodup_cons, ← List.map_append] at hranks
  exact hranks.1 (heq ▸ List.mem_map_of_mem hx)

end Hits

/-- Two hits of different ranks, one on a page. -/
theorem pagesEveryRow_hits_iff_two :
    PagesEveryRow (hits [⟨1, 1⟩, ⟨2, 2⟩] true : Listing (Hit ℕ) ℕ) 1 := by
  have hapart : RanksApart [(⟨1, 1⟩ : Hit ℕ), ⟨2, 2⟩] := by
    simp [RanksApart, epsilon]
    norm_num [abs_of_neg]
  refine (pagesEveryRow_hits_iff _ true 1 Nat.one_pos (by decide) hapart).mpr fun backward => ?_
  refine not_endsTied_of_nodup (((sortRows_perm _ _).map _).nodup_iff.mpr ?_)
  simp [hits]

/-- Two hits of one rank, one on a page: the page behind the first has nothing on it. -/
theorem not_pagesEveryRow_hits_tied :
    ¬ ∀ (rows : List (Hit ℕ)) (descending : Bool) (n : ℕ), 0 < n → (rows.map (·.id)).Nodup →
      RanksApart rows → PagesEveryRow (hits rows descending) n := by
  intro h
  have hids : ([(⟨1, 1⟩ : Hit ℕ), ⟨1, 2⟩].map (·.id)).Nodup := by decide
  have hapart : RanksApart [(⟨1, 1⟩ : Hit ℕ), ⟨1, 2⟩] := by simp [RanksApart]
  have htold : Told (hits _ true) := told_hits hids
  have hpages := h _ true 1 Nat.one_pos hids hapart
  rw [pagesEveryRow_iff Nat.one_pos hids.of_map htold.uniformRows_reverse,
    htold.visitsEveryRow_of_rank Nat.one_pos rfl, ranksSeparate_hits_iff Nat.one_pos hids hapart]
    at hpages
  refine hpages false ⟨[], ⟨1, 2⟩, [⟨1, 1⟩], by decide +kernel, List.cons_ne_nil _ _, Nat.dvd_refl 1,
    ⟨1, 1⟩, List.mem_cons_self, rfl⟩

end Connections

end Aixinwu
