import Aixinwu.Core.Connection
import Mathlib.Tactic.NormNum

/-!
# Paging through a connection

A client that asks for the first `n` rows, and goes on from the last cursor while there is a next
page, is to see every row once, in the order of the sort; one that asks for the last `n` rows, and
goes on before the first cursor, is to see them from the end. Whether it does is decided at the page
ends, by the filters made of the rows there.

Where all fields are sorted in the direction of the first and have no filter of their own, the filter
of a row lets through exactly the rows that come after it in the order: that is `prepareFilter_eq`,
by induction on the fields, with what the fields before contribute carried along. So nothing is lost
or repeated, for any table and any page size. A default ordering that mixes directions, and the
fields `search_rank` and `id`, lose rows where a page ends between rows that the order tells apart
only by a field that the filter compares the other way, or by ranks that it takes for equal.

## Main definitions

* `followLinks` — the client
* `VisitsEveryRow`, `CursorsSeparate`

## Main results

* `prepareFilter_eq`
* `visitsEveryRow_iff`
-/

namespace Aixinwu

namespace Connections

variable {V ρ : Type} [LinearOrder V] {field : ρ → String → Option (Value V)}

/-! ### The order -/

omit field in
@[simp] theorem Value.number_lt_number {p q : ℚ} :
    (Value.number p : Value V) < Value.number q ↔ p < q := Sum.Lex.inl_lt_inl_iff

theorem precedes_irrefl (order : List (String × Bool)) (a : ρ) :
    precedes field order a a = false := by
  induction order with
  | nil => rfl
  | cons e order ih =>
    rw [precedes]
    simp only [if_true]
    exact ih

theorem precedes_asymm {order : List (String × Bool)} {a b : ρ}
    (h : precedes field order a b = true) : precedes field order b a = false := by
  induction order with
  | nil => cases h
  | cons e order ih =>
    obtain ⟨name, descending⟩ := e
    rw [precedes] at h ⊢
    by_cases hxy : field a name = field b name
    · simp only [hxy, if_true] at h ⊢
      exact ih h
    · simp only [hxy, Ne.symm hxy, if_false] at h ⊢
      cases descending
      · exact decide_eq_false (lt_asymm (of_decide_eq_true h))
      · exact decide_eq_false (lt_asymm (of_decide_eq_true h))

/-- Rows that the order does not tell apart agree on its fields. -/
theorem eq_of_not_precedes {order : List (String × Bool)} {a b : ρ}
    (hab : precedes field order a b = false) (hba : precedes field order b a = false) :
    ∀ e ∈ order, field a e.1 = field b e.1 := by
  induction order with
  | nil => nofun
  | cons e order ih =>
    obtain ⟨name, descending⟩ := e
    rw [precedes] at hab hba
    by_cases hxy : field a name = field b name
    · simp only [hxy, if_true] at hab hba
      intro e' he'
      rcases List.mem_cons.mp he' with rfl | he'
      · exact hxy
      · exact ih hab hba e' he'
    · exfalso
      simp only [hxy, Ne.symm hxy, if_false] at hab hba
      cases descending
      · exact hxy (nullsLast_injective
          (le_antisymm (not_lt.mp (of_decide_eq_false hba)) (not_lt.mp (of_decide_eq_false hab))))
      · exact hxy (nullsLast_injective
          (le_antisymm (not_lt.mp (of_decide_eq_false hab)) (not_lt.mp (of_decide_eq_false hba))))

theorem not_precedes_trans {order : List (String × Bool)} {a b c : ρ}
    (hab : precedes field order b a = false) (hbc : precedes field order c b = false) :
    precedes field order c a = false := by
  induction order with
  | nil => rfl
  | cons e order ih =>
    obtain ⟨name, descending⟩ := e
    rw [precedes] at hab hbc ⊢
    by_cases hba : field b name = field a name
    · by_cases hcb : field c name = field b name
      · simp only [hba, hcb, if_true] at hab hbc ⊢
        exact ih hab hbc
      · have hca : field c name ≠ field a name := fun h => hcb (h.trans hba.symm)
        simp only [hcb, hca, if_false] at hbc ⊢
        rw [← hba]
        exact hbc
    · by_cases hcb : field c name = field b name
      · have hca : field c name ≠ field a name := fun h => hba (hcb.symm.trans h)
        simp only [hba, hca, if_false] at hab ⊢
        rw [hcb]
        exact hab
      · simp only [hba, hcb, if_false] at hab hbc
        cases descending
        · -- ascending: the keys of `a`, `b` and `c` do not fall
          have hle₁ := not_lt.mp (of_decide_eq_false hab)
          have hle₂ := not_lt.mp (of_decide_eq_false hbc)
          have hca : field c name ≠ field a name := by
            intro h
            rw [h] at hle₂
            exact hba (nullsLast_injective (le_antisymm hle₂ hle₁))
          simp only [hca, if_false]
          exact decide_eq_false (not_lt.mpr (hle₁.trans hle₂))
        · have hle₁ := not_lt.mp (of_decide_eq_false hab)
          have hle₂ := not_lt.mp (of_decide_eq_false hbc)
          have hca : field c name ≠ field a name := by
            intro h
            rw [h] at hle₂
            exact hba (nullsLast_injective (le_antisymm hle₁ hle₂))
          simp only [hca, if_false]
          exact decide_eq_false (not_lt.mpr (hle₂.trans hle₁))

theorem sortRows_perm (order : List (String × Bool)) (rows : List ρ) :
    (sortRows field order rows).Perm rows := List.perm_insertionSort _ _

theorem sortRows_pairwise (order : List (String × Bool)) (rows : List ρ) :
    (sortRows field order rows).Pairwise fun a b => precedes field order b a = false := by
  have : Std.Total fun a b : ρ => precedes field order b a = false := by
    refine ⟨fun a b => ?_⟩
    rcases hab : precedes field order b a with _ | _
    · exact .inl rfl
    · exact .inr (precedes_asymm hab)
  have : IsTrans ρ fun a b => precedes field order b a = false :=
    ⟨fun _ _ _ => not_precedes_trans⟩
  exact List.pairwise_insertionSort _ rows

/-- The order with all directions turned around is the order the other way. -/
theorem precedes_flip (order : List (String × Bool)) (a b : ρ) :
    precedes field (order.map fun e => (e.1, !e.2)) a b = precedes field order b a := by
  induction order with
  | nil => rfl
  | cons e order ih =>
    obtain ⟨name, descending⟩ := e
    rw [List.map_cons, precedes, precedes]
    by_cases hxy : field a name = field b name
    · simp only [hxy, if_true]
      exact ih
    · cases descending <;> simp [hxy, Ne.symm hxy]

/-! ### The filter -/

/-- What a field with its value adds to the filter is the comparison of `precedes` there. -/
theorem prepareFilterExpression_eq (before : List (String × Option (Value V))) (name : String)
    (value : Option (Value V)) (descending : Bool) (x : ρ)
    (hvalue : value.isNone = true → descending = true) :
    prepareFilterExpression field before name value descending x
      = ((before.all fun e => field x e.1 = e.2) && decide (value ≠ field x name) &&
        (if descending then decide (nullsLast (field x name) < nullsLast value)
          else decide (nullsLast value < nullsLast (field x name)))) := by
  rw [prepareFilterExpression.eq_def]
  cases descending
  · rcases value with _ | v
    · cases hvalue rfl
    · rcases hx : field x name with _ | w
      · simp [isGreater, nullsLast]
      · by_cases hlt : v < w
        · simp [isGreater, nullsLast, hlt, hlt.ne]
        · simp [isGreater, nullsLast, hlt]
  · rcases value with _ | v
    · rcases hx : field x name with _ | w
      · simp
      · simp [nullsLast]
    · rcases hx : field x name with _ | w
      · simp [isGreater, nullsLast]
      · by_cases hlt : w < v
        · simp [isGreater, nullsLast, hlt, hlt.ne']
        · simp [isGreater, nullsLast, hlt]

/-- **The filter, field by field**: the fields before are equal, and the cursor comes before the
row. -/
theorem any_filterTerms (descending : Bool) (c x : ρ) (fields : List String)
    (before : List (String × Option (Value V))) :
    (filterTerms field descending before (fields.zip (cursorOf field fields c))).any (· x)
      = ((before.all fun e => field x e.1 = e.2)
        && precedes field (fields.map fun name => (name, descending)) c x) := by
  induction fields generalizing before with
  | nil => simp [filterTerms, precedes]
  | cons name fields ih =>
    have hlater := ih (before ++ [(name, field c name)])
    rw [cursorOf] at hlater ⊢
    rw [List.map_cons, List.zip_cons_cons, filterTerms, List.map_cons, precedes]
    have hall : ((before ++ [(name, field c name)]).all fun e => field x e.1 = e.2)
        = ((before.all fun e => field x e.1 = e.2) && decide (field x name = field c name)) := by
      simp
    rw [hall] at hlater
    by_cases hnull : ((field c name).isNone && !descending) = true
    · -- nothing comes after a `NULL`
      obtain ⟨hnone, hasc⟩ := Bool.and_eq_true_iff.mp hnull
      have hnone : field c name = none := Option.isNone_iff_eq_none.mp hnone
      have hasc : descending = false := by simpa using hasc
      rw [if_pos hnull, hlater]
      subst hasc
      by_cases hxy : field x name = field c name
      · simp [hxy]
      · have hnot : ¬ nullsLast (field c name) < nullsLast (field x name) := by
          rw [hnone]
          exact not_top_lt
        simp [hxy, Ne.symm hxy, hnot]
    · rw [if_neg hnull]
      have hvalue : (field c name).isNone = true → descending = true := by
        intro hnone
        by_contra hasc
        exact hnull (by simp [hnone, hasc])
      simp only [List.any_cons]
      rw [hlater, prepareFilterExpression_eq _ _ _ _ _ hvalue]
      by_cases hxy : field x name = field c name
      · simp [hxy]
      · simp [hxy, Ne.symm hxy]

theorem filterTerms_ne_nil {descending : Bool} {fields : List String} {c : ρ} {name : String}
    (hname : name ∈ fields) (hvalue : field c name ≠ none)
    (before : List (String × Option (Value V))) :
    (filterTerms field descending before (fields.zip (cursorOf field fields c))).isEmpty = false := by
  induction fields generalizing before with
  | nil => cases hname
  | cons other fields ih =>
    have hlater := fun hmem => ih hmem (before ++ [(other, field c other)])
    rw [cursorOf] at hlater ⊢
    rw [List.map_cons, List.zip_cons_cons, filterTerms]
    rcases List.mem_cons.mp hname with rfl | hmem
    · have hsome : (field c name).isNone = false := by
        rcases h : field c name with _ | v
        · exact absurd h hvalue
        · rfl
      rw [hsome]
      rfl
    · split
      · exact hlater hmem
      · rfl

/-- **The filter of a cursor** lets through what comes after its row, if all fields are sorted in the
direction of the filter. -/
theorem prepareFilter_eq {descending : Bool} {fields : List String} {c : ρ} {name : String}
    (hrank : fields ≠ ["search_rank", "id"]) (hname : name ∈ fields)
    (hvalue : field c name ≠ none) :
    prepareFilter field fields descending (cursorOf field fields c)
      = some (precedes field (fields.map fun name => (name, descending)) c) := by
  rw [prepareFilter, if_neg hrank]
  refine congrArg some ?_
  funext x
  rw [filterTerms_ne_nil hname hvalue, any_filterTerms]
  simp

/-! ### The client -/

/-- The listing that is paged through. `search_rank` is an annotation, not a column, so no
`Meta.ordering` names it. -/
structure Listing (ρ V : Type) where
  field : ρ → String → Option (Value V)
  modelOrdering : List (String × Bool) := []
  sortBy : Option SortBy := none
  table : List ρ
  columns : modelOrdering.map (·.1) ≠ ["search_rank", "id"] := by decide

namespace Listing

variable (s : Listing ρ V)

/-- What the listing is sorted by when the first rows are asked for, and what the last. -/
def order (backward : Bool) : List (String × Bool) :=
  match s.sortBy with
  | some sortBy => sortQueryset sortBy backward
  | none => (sortQuerysetByDefault s.modelOrdering backward).1

/-- The fields and the direction of the cursors. -/
def sorting : SortBy :=
  match s.sortBy with
  | some sortBy => sortBy
  | none => (sortQuerysetByDefault s.modelOrdering false).2

/-- The rows in the order of `sort_queryset_for_connection`. -/
def rows (backward : Bool) : List ρ := sortRows s.field (s.order backward) s.table

/-- The filter made of the cursor of a row. -/
def filterOf (backward : Bool) (c : ρ) : Option (ρ → Bool) :=
  prepareFilter s.field s.sorting.fields (s.sorting.descending != backward)
    (cursorOf s.field s.sorting.fields c)

/-- A request for the first `n` rows, after a cursor. -/
def forward (n : ℕ) (after : Option (Cursor V)) : Except String (Connection ρ V) :=
  createConnectionSlice s.field s.modelOrdering s.table
    { sortBy := s.sortBy
      first := some n
      after := after }

/-- A request for the last `n` rows, before a cursor. -/
def backward (n : ℕ) (before : Option (Cursor V)) : Except String (Connection ρ V) :=
  createConnectionSlice s.field s.modelOrdering s.table
    { sortBy := s.sortBy
      last := some n
      before := before }

end Listing

/-- Following the cursors `next` while there are `more` pages, for at most so many requests. -/
def followLinks (more : Connection ρ V → Bool) (next : Connection ρ V → Option (Cursor V))
    (request : Option (Cursor V) → Except String (Connection ρ V)) :
    ℕ → Option (Cursor V) → Option (List (Connection ρ V))
  | 0, _ => none
  | fuel + 1, cursor =>
    match request cursor with
    | .error _ => none
    | .ok page =>
      if more page then (followLinks more next request fuel (next page)).map (page :: ·)
      else some [page]

/-- A page, in the direction of travel. -/
def nextPage (page : Connection ρ V) : Paging.Page ρ :=
  ⟨page.edges.map (·.node), page.hasNextPage⟩

/-- A page, travelling backwards. -/
def previousPage (page : Connection ρ V) : Paging.Page ρ :=
  ⟨(page.edges.map (·.node)).reverse, page.hasPreviousPage⟩

/-- **The client sees every row once**: going forwards in order, going backwards in the reverse
order, and every page says whether there are further rows. -/
structure VisitsEveryRow (s : Listing ρ V) (n : ℕ) : Prop where
  forward : ∃ fuel pages,
    followLinks (·.hasNextPage) (·.endCursor) (s.forward n) fuel none = some pages ∧
      Paging.Visits (pages.map nextPage) (s.rows false)
  backward : ∃ fuel pages,
    followLinks (·.hasPreviousPage) (·.startCursor) (s.backward n) fuel none = some pages ∧
      Paging.Visits (pages.map previousPage) (s.rows false).reverse

/-- What the filter for ranks takes to be behind a row: a rank further on by more than `EPSILON`, or a
close one with an id on the other side. -/
def RankedBehind (field : ρ → String → Option (Value V)) (descending : Bool) (c x : ρ) : Prop :=
  ∃ rank searchRank, field c "search_rank" = some (.number rank) ∧
    field x "search_rank" = some (.number searchRank) ∧
    let close := rank - epsilon ≤ searchRank ∧ searchRank ≤ rank + epsilon
    if descending then
      (close ∧ isGreater (field x "id") (field c "id") = true) ∨ searchRank < rank - epsilon
    else (close ∧ isGreater (field c "id") (field x "id") = true) ∨ rank + epsilon < searchRank

/-- Where a page ends, those ranks and ids put the rows shown before the last of them, and those of
the next page behind it. -/
def RanksSeparate (s : Listing ρ V) (n : ℕ) : Prop :=
  ∀ backward seen c rest, s.rows backward = seen ++ c :: rest → rest ≠ [] →
    n ∣ seen.length + 1 →
    let behind := RankedBehind s.field (s.sorting.descending != backward) c
    (∀ x ∈ seen ++ [c], ¬ behind x) ∧ (∀ x ∈ rest.take n, behind x) ∧
      (rest.drop n ≠ [] → ∃ x ∈ rest.drop n, behind x)

/-- The table sorted by all fields in the direction of the first. -/
def Listing.uniformRows (s : Listing ρ V) (backward : Bool) : List ρ :=
  sortRows s.field (s.sorting.fields.map fun name => (name, s.sorting.descending != backward))
    s.table

/-- **When the cursors do their work**: sorting by the rank, where ranks and ids separate the rows at
the page ends; sorting by anything else, where the directions of a default ordering make no
difference to the order of the rows. -/
def CursorsSeparate (s : Listing ρ V) (n : ℕ) : Prop :=
  if s.sorting.fields = ["search_rank", "id"] then RanksSeparate s n
  else s.rows false = s.uniformRows false

/-! ### The pages of the code -/

omit [LinearOrder V] in
/-- The cursor of a page's last row is the cursor a client goes on with. -/
theorem getLast?_cursor (fields : List String) (records : List ρ) :
    (records.map fun x => (⟨x, cursorOf field fields x⟩ : Edge ρ V)).getLast?.map (·.cursor)
      = records.getLast?.map (cursorOf field fields) := by
  rw [List.getLast?_map, Option.map_map]
  rfl

omit [LinearOrder V] in
theorem map_node (fields : List String) (records : List ρ) :
    (records.map fun x => (⟨x, cursorOf field fields x⟩ : Edge ρ V)).map (·.node) = records := by
  rw [List.map_map]
  exact List.map_id records

variable {s : Listing ρ V} {n : ℕ}

omit [LinearOrder V] in
/-- The edges found for a request for the first rows. -/
theorem getEdges_first (field : ρ → String → Option (Value V)) (hn : 0 < n) (args : Args V) (hfirst : args.first = some (n : ℤ))
    (hlast : args.last = none) (fields : List String) (rows : List ρ) :
    nextPage (getEdgesForConnection field (rows.take (n + 1)) args fields) = Paging.firstOf n rows ∧
      (getEdgesForConnection field (rows.take (n + 1)) args fields).endCursor
        = (Paging.firstOf n rows).records.getLast?.map (cursorOf field fields) := by
  have htruthy : truthy args.first = true := by
    rw [hfirst, truthy]
    simpa using hn.ne'
  have hnot : truthy args.last = false := by
    rw [hlast]
    rfl
  have hcount : (args.first.getD 0).toNat = n := by
    rw [hfirst]
    exact Int.toNat_natCast n
  have hslice : slice (rows.take (n + 1)) 0 (some n) = (rows.take (n + 1)).take n := by
    simp [slice]
  rw [getEdgesForConnection, htruthy, hnot]
  simp only [hcount, Bool.false_eq_true, if_false, hslice]
  exact ⟨congrArg (Paging.Page.mk · _) (map_node fields _), getLast?_cursor fields _⟩

omit [LinearOrder V] in
/-- The edges found for a request for the last rows. -/
theorem getEdges_last (field : ρ → String → Option (Value V)) (hn : 0 < n) (args : Args V) (hfirst : args.first = none)
    (hlast : args.last = some (n : ℤ)) (fields : List String) (rows : List ρ) :
    previousPage (getEdgesForConnection field (rows.take (n + 1)) args fields)
        = Paging.firstOf n rows ∧
      (getEdgesForConnection field (rows.take (n + 1)) args fields).startCursor
        = (Paging.firstOf n rows).records.getLast?.map (cursorOf field fields) := by
  have htruthy : truthy args.last = true := by
    rw [hlast, truthy]
    simpa using hn.ne'
  have hnot : truthy args.first = false := by
    rw [hfirst]
    rfl
  have hcount : (args.last.getD 0).toNat = n := by
    rw [hlast]
    exact Int.toNat_natCast n
  have hslice : slice (rows.take (n + 1)).reverse
        (if (rows.take (n + 1)).length ≤ n then 0 else 1) none
      = ((rows.take (n + 1)).take n).reverse := by
    have hle : (rows.take (n + 1)).length ≤ n + 1 := List.length_take_le _ _
    split
    · rename_i hshort
      rw [List.take_of_length_le hshort]
      simp [slice]
    · rename_i hlong
      have hlength : (rows.take (n + 1)).length - 1 = n := by omega
      simp only [slice, Option.map_none, Option.getD_none]
      rw [if_neg (by omega), show (1 : ℤ).toNat = 1 from rfl, List.drop_reverse, hlength]
  rw [getEdgesForConnection, htruthy, hnot]
  simp only [hcount, hslice]
  constructor
  · refine congrArg (Paging.Page.mk · _) ?_
    rw [map_node, List.reverse_reverse]
  · rw [List.head?_map, Option.map_map, List.head?_reverse]
    rfl

/-- A request answers with the page behind its cursor, or with an error if the cursor has no
filter. -/
structure Answers (rows : List ρ) (filterOf : ρ → Option (ρ → Bool)) (n : ℕ) (cursor : ρ → Cursor V)
    (toPage : Connection ρ V → Paging.Page ρ) (next : Connection ρ V → Option (Cursor V))
    (request : Option (Cursor V) → Except String (Connection ρ V)) : Prop where
  error : ∀ c, Paging.page rows filterOf n c = none → ∃ e, request (c.map cursor) = .error e
  ok : ∀ c p, Paging.page rows filterOf n c = some p → ∃ page,
    request (c.map cursor) = .ok page ∧ toPage page = p ∧
      next page = p.records.getLast?.map cursor

omit [LinearOrder V] in
theorem length_fields (s : Listing ρ V) (c : ρ) :
    (cursorOf s.field s.sorting.fields c).length = s.sorting.fields.length := List.length_map _

theorem createConnectionSlice_forward (s : Listing ρ V) (n : ℕ) (after : Option (Cursor V)) :
    s.forward n after = connectionFromQuerysetSlice s.field (s.rows false)
      { sortBy := s.sortBy, first := some (n : ℤ), after := after } s.sorting := by
  obtain ⟨field, modelOrdering, sortBy, table, columns⟩ := s
  cases sortBy <;> rfl

theorem createConnectionSlice_backward (s : Listing ρ V) (n : ℕ) (before : Option (Cursor V)) :
    s.backward n before = connectionFromQuerysetSlice s.field (s.rows true)
      { sortBy := s.sortBy, last := some (n : ℤ), before := before } s.sorting := by
  obtain ⟨field, modelOrdering, sortBy, table, columns⟩ := s
  cases sortBy <;> rfl

theorem truthy_natCast (hn : 0 < n) : truthy (some (n : ℤ)) = true := by
  rw [truthy]
  simpa using hn.ne'

theorem answers_forward (s : Listing ρ V) (hn : 0 < n) :
    Answers (s.rows false) (s.filterOf false) n (cursorOf s.field s.sorting.fields) nextPage
      (·.endCursor) (s.forward n) := by
  have htruthy : truthy (some (n : ℤ)) = true := truthy_natCast hn
  have hvalid : ∀ after, validateConnectionArgs
      ({ sortBy := s.sortBy, first := some (n : ℤ), after := after } : Args V) = .ok () := by
    intro after
    have hneg : ¬ ((n : ℤ) < 0) := by omega
    simp [validateConnectionArgs, truthy, hneg]
  constructor
  · intro c hpage
    rcases c with _ | c
    · cases hpage
    · have hfilter : s.filterOf false c = none := Option.map_eq_none_iff.mp hpage
      refine ⟨"Received cursor is invalid.", ?_⟩
      rw [createConnectionSlice_forward, connectionFromQuerysetSlice, hvalid]
      simp only [Option.map_some, Option.some_or, length_fields, ne_eq, not_true_eq_false,
        if_false, htruthy]
      rw [Listing.filterOf] at hfilter
      simp only [Bool.and_false, Bool.not_true, Bool.bne_false] at hfilter ⊢
      rw [hfilter]
  · intro c p hpage
    rw [createConnectionSlice_forward, connectionFromQuerysetSlice, hvalid]
    rcases c with _ | c
    · obtain rfl := Option.some.inj hpage
      have hedges := getEdges_first s.field hn
        { sortBy := s.sortBy, first := some (n : ℤ), after := none } rfl rfl s.sorting.fields
        (s.rows false)
      simp only [Option.map_none, Option.none_or, htruthy, if_true, Int.toNat_natCast]
      exact ⟨_, rfl, hedges⟩
    · obtain ⟨passes, hfilter, rfl⟩ := Option.map_eq_some_iff.mp hpage
      have hedges := getEdges_first s.field hn
        { sortBy := s.sortBy, first := some (n : ℤ),
          after := some (cursorOf s.field s.sorting.fields c) } rfl rfl s.sorting.fields
        ((s.rows false).filter passes)
      rw [Listing.filterOf] at hfilter
      simp only [Option.map_some, Option.some_or, length_fields, ne_eq, not_true_eq_false,
        if_false, htruthy, if_true, Int.toNat_natCast]
      simp only [Bool.and_false, Bool.not_true, Bool.bne_false] at hfilter ⊢
      rw [hfilter]
      exact ⟨_, rfl, hedges⟩

theorem answers_backward (s : Listing ρ V) (hn : 0 < n) :
    Answers (s.rows true) (s.filterOf true) n (cursorOf s.field s.sorting.fields) previousPage
      (·.startCursor) (s.backward n) := by
  have htruthy : truthy (some (n : ℤ)) = true := truthy_natCast hn
  have hnone : truthy none = false := rfl
  have hvalid : ∀ before, validateConnectionArgs
      ({ sortBy := s.sortBy, last := some (n : ℤ), before := before } : Args V) = .ok () := by
    intro before
    have hneg : ¬ ((n : ℤ) < 0) := by omega
    simp [validateConnectionArgs, truthy, hneg]
  constructor
  · intro c hpage
    rcases c with _ | c
    · cases hpage
    · have hfilter : s.filterOf true c = none := Option.map_eq_none_iff.mp hpage
      refine ⟨"Received cursor is invalid.", ?_⟩
      rw [createConnectionSlice_backward, connectionFromQuerysetSlice, hvalid]
      simp only [Option.map_some, Option.none_or, length_fields, ne_eq, not_true_eq_false,
        if_false, htruthy, hnone, Bool.not_false, Bool.and_true]
      rw [Listing.filterOf] at hfilter
      rw [hfilter]
  · intro c p hpage
    rw [createConnectionSlice_backward, connectionFromQuerysetSlice, hvalid]
    rcases c with _ | c
    · obtain rfl := Option.some.inj hpage
      have hedges := getEdges_last s.field hn
        { sortBy := s.sortBy, last := some (n : ℤ), before := none } rfl rfl s.sorting.fields
        (s.rows true)
      simp only [Option.map_none, Option.none_or, htruthy, hnone, Bool.false_eq_true, if_false,
        if_true, Int.toNat_natCast]
      exact ⟨_, rfl, hedges⟩
    · obtain ⟨passes, hfilter, rfl⟩ := Option.map_eq_some_iff.mp hpage
      have hedges := getEdges_last s.field hn
        { sortBy := s.sortBy, last := some (n : ℤ),
          before := some (cursorOf s.field s.sorting.fields c) } rfl rfl s.sorting.fields
        ((s.rows true).filter passes)
      rw [Listing.filterOf] at hfilter
      simp only [Option.map_some, Option.none_or, length_fields, ne_eq, not_true_eq_false,
        Bool.false_eq_true, if_false, htruthy, hnone, if_true, Int.toNat_natCast, Bool.not_false,
        Bool.and_true]
      rw [hfilter]
      exact ⟨_, rfl, hedges⟩

omit [LinearOrder V] in
/-- **The client of the code follows the cursors of rows.** -/
theorem followLinks_eq {rows : List ρ} {filterOf : ρ → Option (ρ → Bool)} {cursor : ρ → Cursor V}
    {toPage : Connection ρ V → Paging.Page ρ} {next : Connection ρ V → Option (Cursor V)}
    {request : Option (Cursor V) → Except String (Connection ρ V)} (hn : 0 < n)
    (h : Answers rows filterOf n cursor toPage next request) (fuel : ℕ) (c : Option ρ) :
    (followLinks (fun page => (toPage page).more) next request fuel (c.map cursor)).map
        (·.map toPage) = Paging.follow rows filterOf n fuel c := by
  induction fuel generalizing c with
  | zero => rfl
  | succ fuel ih =>
    rw [followLinks, Paging.follow]
    rcases hpage : Paging.page rows filterOf n c with _ | p
    · obtain ⟨e, he⟩ := h.error c hpage
      rw [he]
      rfl
    · obtain ⟨page, hok, rfl, hnext⟩ := h.ok c _ hpage
      rw [hok]
      simp only [hnext]
      by_cases hmore : (toPage page).more = true
      · simp only [hmore, if_true]
        obtain ⟨l, -, hl⟩ := Paging.exists_of_page hpage
        have hlong : n < l.length := by
          rw [hl] at hmore
          exact of_decide_eq_true hmore
        have hne : (toPage page).records ≠ [] := by
          rw [hl]
          intro hnil
          have hlen := congrArg List.length hnil
          rw [List.length_take, List.length_nil] at hlen
          omega
        rw [List.getLast?_eq_some_getLast hne]
        have hrest := ih (some ((toPage page).records.getLast hne))
        simp only [Option.map_some] at hrest ⊢
        rw [← hrest, Option.map_map, Option.map_map]
        rfl
      · simp only [Bool.eq_false_iff.mpr hmore, Bool.false_eq_true, if_false]
        rfl

/-! ### The two sorts -/

/-- The fields of a listing tell its rows apart, and the last of them is never `NULL`. -/
structure Told (s : Listing ρ V) : Prop where
  apart : s.table.Pairwise fun a b => ∃ name ∈ s.sorting.fields, s.field a name ≠ s.field b name
  last : ∀ a ∈ s.table, ∃ name, s.sorting.fields.getLast? = some name ∧ s.field a name ≠ none

theorem sortRows_strict {order : List (String × Bool)} {table : List ρ}
    (h : table.Pairwise fun a b => ∃ e ∈ order, field a e.1 ≠ field b e.1) :
    (sortRows field order table).Pairwise fun a b => precedes field order a b = true := by
  have hapart : (sortRows field order table).Pairwise
      fun a b => ∃ e ∈ order, field a e.1 ≠ field b e.1 := by
    refine ((sortRows_perm order table).pairwise_iff ?_).mpr h
    rintro a b ⟨e, he, hne⟩
    exact ⟨e, he, hne.symm⟩
  refine (hapart.and (sortRows_pairwise order table)).imp ?_
  rintro a b ⟨⟨e, he, hne⟩, hba⟩
  rcases hab : precedes field order a b with _ | _
  · exact absurd (eq_of_not_precedes hab hba e he) hne
  · rfl

/-- A sort in one direction and the sort in the other. -/
theorem sortRows_flip {order : List (String × Bool)} {table : List ρ}
    (h : table.Pairwise fun a b => ∃ e ∈ order, field a e.1 ≠ field b e.1) :
    sortRows field (order.map fun e => (e.1, !e.2)) table = (sortRows field order table).reverse := by
  have hflip : (sortRows field (order.map fun e => (e.1, !e.2)) table).Pairwise
      fun a b => precedes field order b a = true := by
    refine (sortRows_strict ?_).imp fun {a b} hab => ?_
    · refine h.imp ?_
      rintro a b ⟨e, he, hne⟩
      exact ⟨(e.1, !e.2), List.mem_map_of_mem he, hne⟩
    · rwa [precedes_flip] at hab
  refine List.Perm.eq_of_pairwise ?_ hflip (List.pairwise_reverse.mpr (sortRows_strict h)) ?_
  · intro a b _ _ hba hab
    rw [precedes_asymm hba] at hab
    cases hab
  · exact (sortRows_perm _ table).trans
      ((sortRows_perm order table).symm.trans (List.reverse_perm _).symm)

/-- Asking for the last rows, all fields are sorted in one direction, also by default. -/
theorem rows_true (s : Listing ρ V) : s.rows true = s.uniformRows true := by
  obtain ⟨field, modelOrdering, sortBy, table, columns⟩ := s
  cases sortBy with
  | some sortBy => rfl
  | none =>
    have hdirection : ∀ b : Bool, (b != true) = !b := fun b => by cases b <;> rfl
    simp only [Listing.rows, Listing.uniformRows, Listing.order, Listing.sorting,
      sortQuerysetByDefault, if_true, hdirection]

theorem rows_of_sortBy (s : Listing ρ V) (h : s.sortBy.isSome) (backward : Bool) :
    s.rows backward = s.uniformRows backward := by
  obtain ⟨field, modelOrdering, sortBy, table, columns⟩ := s
  cases sortBy with
  | some sortBy => rfl
  | none => cases h

omit [LinearOrder V] in
theorem sortBy_of_rank (s : Listing ρ V) (h : s.sorting.fields = ["search_rank", "id"]) :
    s.sortBy.isSome := by
  obtain ⟨field, modelOrdering, sortBy, table, columns⟩ := s
  cases sortBy with
  | some sortBy => rfl
  | none =>
    exfalso
    simp only [Listing.sorting, sortQuerysetByDefault] at h
    split at h
    · exact absurd h (by decide)
    · exact columns h

omit [LinearOrder V] in
theorem Told.apart_uniform (h : Told s) (backward : Bool) : s.table.Pairwise fun a b =>
    ∃ e ∈ s.sorting.fields.map fun name => (name, s.sorting.descending != backward),
      s.field a e.1 ≠ s.field b e.1 := by
  refine h.apart.imp ?_
  rintro a b ⟨name, hname, hne⟩
  exact ⟨(name, _), List.mem_map_of_mem hname, hne⟩

theorem Told.uniformRows_reverse (h : Told s) :
    s.uniformRows true = (s.uniformRows false).reverse := by
  have hflip := sortRows_flip (h.apart_uniform false)
  rw [List.map_map] at hflip
  rw [Listing.uniformRows, Listing.uniformRows, ← hflip]
  refine congrArg (sortRows s.field · s.table) (List.map_congr_left fun name _ => ?_)
  cases s.sorting.descending <;> rfl

theorem mem_uniformRows {backward : Bool} {x : ρ} : x ∈ s.uniformRows backward ↔ x ∈ s.table :=
  (sortRows_perm _ _).mem_iff

theorem Told.nodup_uniformRows (h : Told s) (backward : Bool) : (s.uniformRows backward).Nodup := by
  refine (sortRows_strict (h.apart_uniform backward)).imp ?_
  rintro a b hab rfl
  rw [precedes_irrefl] at hab
  cases hab

/-- Sorted by all fields in one direction, the rows are separated by their filters. -/
theorem Told.separated (h : Told s) (hrank : s.sorting.fields ≠ ["search_rank", "id"])
    (backward : Bool) (n : ℕ) :
    Paging.Separated (s.uniformRows backward) (s.filterOf backward) n := by
  refine Paging.separated_of_strict (fun seen c rest hrows => ?_) n
  have hstrict := sortRows_strict (h.apart_uniform backward)
  have hmem : c ∈ s.table := by
    rw [← mem_uniformRows, hrows]
    simp
  obtain ⟨name, hname, hvalue⟩ := h.last c hmem
  refine ⟨_, prepareFilter_eq hrank (List.mem_of_getLast? hname) hvalue, ?_, ?_⟩
  · rw [← Listing.uniformRows, hrows, List.pairwise_append] at hstrict
    intro x hx hpass
    rcases List.mem_append.mp hx with hx | hx
    · have hxc := hstrict.2.2 x hx c List.mem_cons_self
      rw [precedes_asymm hxc] at hpass
      cases hpass
    · rw [List.mem_singleton.mp hx, precedes_irrefl] at hpass
      cases hpass
  · rw [← Listing.uniformRows, hrows, List.pairwise_append] at hstrict
    exact (List.pairwise_cons.mp hstrict.2.1).1

/-! ### Sorting by the rank -/

theorem filterOf_rank (hrank : s.sorting.fields = ["search_rank", "id"]) (backward : Bool) (c : ρ) :
    s.filterOf backward c = prepareFilterByRankExpression s.field
      [s.field c "search_rank", s.field c "id"] (s.sorting.descending != backward) := by
  rw [Listing.filterOf, prepareFilter, hrank, if_pos rfl]
  rfl

omit [LinearOrder V] in
theorem numberIn_eq_some {x : Option (Value V)} {q : ℚ} :
    numberIn x = some q ↔ x = some (.number q) := by
  rcases x with _ | ⟨q' | v⟩ <;> simp [numberIn]

/-- **The filter for ranks** lets through the rows that it takes to be behind. -/
theorem rankFilter_iff {descending : Bool} {c : ρ} {passes : ρ → Bool}
    (h : prepareFilterByRankExpression field [field c "search_rank", field c "id"] descending
      = some passes) (x : ρ) : passes x = true ↔ RankedBehind field descending c x := by
  rcases hid : field c "id" with _ | id
  · rw [hid] at h
    cases h
  rw [hid, prepareFilterByRankExpression] at h
  obtain ⟨rank, hnumber, rfl⟩ := Option.map_eq_some_iff.mp h
  have hrank := numberIn_eq_some.mp hnumber
  rw [RankedBehind]
  rcases hx : numberIn (field x "search_rank") with _ | searchRank
  · refine iff_of_false (by simp [hx]) ?_
    rintro ⟨_, r, -, hr, -⟩
    rw [numberIn_eq_some.mpr hr] at hx
    cases hx
  · have hsearch := numberIn_eq_some.mp hx
    simp only [hrank, hsearch, hid, numberIn, Option.any_some, Option.some.injEq, Value.number.injEq,
      exists_and_left, exists_eq_left']
    cases descending <;> simp

/-- Ranks and ids separate the rows exactly where their filters do. -/
theorem Told.ranksSeparate_iff (h : Told s) (hrank : s.sorting.fields = ["search_rank", "id"])
    (hn : 0 < n) :
    RanksSeparate s n ↔ ∀ backward, Paging.Separated (s.rows backward) (s.filterOf backward) n := by
  have hid : ∀ c ∈ s.table, s.field c "id" ≠ none := by
    intro c hc
    obtain ⟨name, hname, hvalue⟩ := h.last c hc
    rw [hrank] at hname
    obtain rfl := Option.some.inj hname
    exact hvalue
  constructor
  · intro hsep backward seen c rest hrows hrest hpages
    obtain ⟨hseen, hnext, hmore⟩ := hsep backward seen c rest hrows hrest hpages
    -- the next page has a row, so the rank of `c` is a number
    obtain ⟨first, hfirst⟩ : ∃ x, x ∈ rest.take n := by
      refine List.exists_mem_of_ne_nil _ fun hnil => ?_
      rcases List.take_eq_nil_iff.mp hnil with hzero | hnil
      · exact hn.ne' hzero
      · exact hrest hnil
    obtain ⟨rank, -, hc, -⟩ := hnext first hfirst
    have hmem : c ∈ s.table := by
      rw [rows_of_sortBy s (sortBy_of_rank s hrank)] at hrows
      rw [← mem_uniformRows, hrows]
      simp
    obtain ⟨id, hcid⟩ := Option.ne_none_iff_exists'.mp (hid c hmem)
    obtain ⟨passes, hpasses⟩ : ∃ passes, s.filterOf backward c = some passes := by
      rw [filterOf_rank hrank, hc, hcid]
      exact ⟨_, rfl⟩
    have hiff := rankFilter_iff ((filterOf_rank hrank backward c).symm.trans hpasses)
    refine ⟨passes, hpasses, fun x hx => ?_, fun x hx => (hiff x).mpr (hnext x hx), fun hne => ?_⟩
    · exact fun hpass => hseen x hx ((hiff x).mp hpass)
    · obtain ⟨x, hx, hbehind⟩ := hmore hne
      exact ⟨x, hx, (hiff x).mpr hbehind⟩
  · intro hsep backward seen c rest hrows hrest hpages
    obtain ⟨passes, hpasses, hseen, hnext, hmore⟩ :=
      hsep backward seen c rest hrows hrest hpages
    have hiff := rankFilter_iff ((filterOf_rank hrank backward c).symm.trans hpasses)
    refine ⟨fun x hx hbehind => hseen x hx ((hiff x).mpr hbehind),
      fun x hx => (hiff x).mp (hnext x hx), fun hne => ?_⟩
    obtain ⟨x, hx, hpass⟩ := hmore hne
    exact ⟨x, hx, (hiff x).mp hpass⟩

/-! ### The client of the code -/

omit [LinearOrder V] in
/-- What the client of the code sees is what a client that names rows sees. -/
theorem Answers.exists_iff {rows : List ρ} {filterOf : ρ → Option (ρ → Bool)}
    {cursor : ρ → Cursor V} {toPage : Connection ρ V → Paging.Page ρ}
    {next : Connection ρ V → Option (Cursor V)}
    {request : Option (Cursor V) → Except String (Connection ρ V)}
    (h : Answers rows filterOf n cursor toPage next request) (hn : 0 < n)
    (seen : List (Paging.Page ρ) → Prop) :
    (∃ fuel pages, followLinks (fun page => (toPage page).more) next request fuel none = some pages
        ∧ seen (pages.map toPage)) ↔
      ∃ fuel pages, Paging.follow rows filterOf n fuel none = some pages ∧ seen pages := by
  have heq := fun fuel => followLinks_eq hn h fuel none
  rw [Option.map_none] at heq
  constructor
  · rintro ⟨fuel, pages, hpages, hseen⟩
    refine ⟨fuel, pages.map toPage, ?_, hseen⟩
    rw [← heq, hpages, Option.map_some]
  · rintro ⟨fuel, pages, hpages, hseen⟩
    rw [← heq] at hpages
    obtain ⟨links, hlinks, rfl⟩ := Option.map_eq_some_iff.mp hpages
    exact ⟨fuel, links, hlinks, hseen⟩

theorem visitsEveryRow_eq (s : Listing ρ V) (hn : 0 < n) :
    VisitsEveryRow s n ↔
      (∃ fuel pages, Paging.follow (s.rows false) (s.filterOf false) n fuel none = some pages ∧
        Paging.Visits pages (s.rows false)) ∧
      ∃ fuel pages, Paging.follow (s.rows true) (s.filterOf true) n fuel none = some pages ∧
        Paging.Visits pages (s.rows false).reverse := by
  have hforward := (answers_forward s hn).exists_iff hn (Paging.Visits · (s.rows false))
  have hbackward := (answers_backward s hn).exists_iff hn (Paging.Visits · (s.rows false).reverse)
  rw [← hforward, ← hbackward]
  exact ⟨fun h => ⟨h.forward, h.backward⟩, fun h => ⟨h.1, h.2⟩⟩

/-- Sorted by the rank, paging visits every row where ranks and ids separate the rows. -/
theorem Told.visitsEveryRow_of_rank (h : Told s) (hn : 0 < n)
    (hrank : s.sorting.fields = ["search_rank", "id"]) :
    VisitsEveryRow s n ↔ RanksSeparate s n := by
  have hnodup := h.nodup_uniformRows
  have hrows := rows_of_sortBy s (sortBy_of_rank s hrank)
  rw [visitsEveryRow_eq s hn, h.ranksSeparate_iff hrank hn, Bool.forall_bool, hrows, hrows,
    ← h.uniformRows_reverse, Paging.follow_iff hn (hnodup false), Paging.follow_iff hn (hnodup true)]

/-- Sorted by columns, it does where sorting them in one direction makes no difference. -/
theorem Told.visitsEveryRow_of_columns (h : Told s) (hn : 0 < n)
    (hrank : s.sorting.fields ≠ ["search_rank", "id"]) :
    VisitsEveryRow s n ↔ s.rows false = s.uniformRows false := by
  have hreverse := h.uniformRows_reverse
  -- going backwards, nothing is lost
  have hback := (Paging.follow_iff hn (h.nodup_uniformRows true)).mpr (h.separated hrank true n)
  rw [visitsEveryRow_eq s hn, rows_true]
  constructor
  · rintro ⟨-, fuel, pages, hpages, hvisits⟩
    obtain ⟨fuel', pages', hpages', hvisits'⟩ := hback
    obtain rfl := Paging.follow_unique hpages hpages'
    have hsame : (s.rows false).reverse = s.uniformRows true :=
      (Paging.flatMap_of_visits hvisits).symm.trans (Paging.flatMap_of_visits hvisits')
    rw [hreverse] at hsame
    exact List.reverse_injective hsame
  · intro hsame
    rw [hsame, ← hreverse]
    exact ⟨(Paging.follow_iff hn (h.nodup_uniformRows false)).mpr (h.separated hrank false n), hback⟩

/-- Where a client chooses the fields, they are sorted in one direction, so only ranks can fail to
separate. -/
theorem cursorsSeparate_of_sortBy (s : Listing ρ V) (n : ℕ) (h : s.sortBy.isSome)
    (hrank : s.sorting.fields ≠ ["search_rank", "id"]) : CursorsSeparate s n := by
  rw [CursorsSeparate, if_neg hrank]
  exact rows_of_sortBy s h false

/-- **Paging visits every row once**, forwards and backwards, exactly where the cursors do their
work: always, if all fields are sorted in one direction and are not the rank and the id. -/
theorem visitsEveryRow_iff (s : Listing ρ V) (n : ℕ) (hn : 0 < n)
    (apart : s.table.Pairwise fun a b => ∃ name ∈ s.sorting.fields, s.field a name ≠ s.field b name)
    (last : ∀ a ∈ s.table, ∃ name, s.sorting.fields.getLast? = some name ∧ s.field a name ≠ none) :
    VisitsEveryRow s n ↔ CursorsSeparate s n := by
  have h : Told s := ⟨apart, last⟩
  rw [CursorsSeparate]
  split
  · rename_i hrank
    exact h.visitsEveryRow_of_rank hn hrank
  · rename_i hrank
    exact h.visitsEveryRow_of_columns hn hrank

/-- Rows with a rank and an id. -/
def rankField (x : ℚ × ℚ) (name : String) : Option (Value ℕ) :=
  if name = "search_rank" then some (.number x.1)
  else if name = "id" then some (.number x.2)
  else none

/-- Two search results. -/
def searchResults (rank rank' : ℚ) : Listing (ℚ × ℚ) ℕ where
  field := rankField
  sortBy := some { fields := ["search_rank", "id"], descending := true }
  table := [(rank, 1), (rank', 2)]

/-- Sorted by the id alone, both are seen. -/
theorem visitsEveryRow_by_id :
    VisitsEveryRow
      { searchResults 1 1 with sortBy := some { fields := ["id"], descending := true } } 1 := by
  refine (visitsEveryRow_iff _ 1 Nat.one_pos ?_ ?_).mpr (cursorsSeparate_of_sortBy _ 1 rfl ?_)
  · simp [searchResults, Listing.sorting, rankField]
  · simp [searchResults, Listing.sorting, rankField]
  · decide

/-- Two results of the same rank, one on a page: the second is never seen. -/
theorem not_visitsEveryRow_of_tied_ranks : ¬ VisitsEveryRow (searchResults 1 1) 1 := by
  have h : Told (searchResults 1 1) := by
    constructor
    · simp [searchResults, Listing.sorting, rankField]
    · simp [searchResults, Listing.sorting, rankField]
  rw [h.visitsEveryRow_of_rank Nat.one_pos rfl]
  intro hsep
  have hrows : (searchResults 1 1).rows false = [] ++ (1, 2) :: [(1, 1)] := by decide +kernel
  obtain ⟨-, hnext, -⟩ := hsep false [] (1, 2) [(1, 1)] hrows (List.cons_ne_nil _ _)
    (Nat.dvd_refl 1)
  obtain ⟨rank, searchRank, hrank, hsearch, hbehind⟩ := hnext (1, 1) List.mem_cons_self
  simp [searchResults, Listing.sorting, rankField] at hrank hsearch hbehind
  subst hrank hsearch
  norm_num [isGreater, epsilon] at hbehind

end Connections

end Aixinwu
