import Mathlib.Data.List.Basic
import Mathlib.Data.List.Nodup
import Mathlib.Data.List.TakeWhile
import Mathlib.Algebra.Order.Group.Nat

/-!
# Following cursors

Rows stand in an order and are handed out in pages of `n`. The first page begins with the first row;
every further request names the last row it has seen, and a filter made of that row is to leave the
rows behind it. One row more than a page is looked up, to say whether there are further ones.

Nothing is assumed of the filters. A filter that lets through a row from before the cursor, or keeps
back one from behind it, loses or repeats rows only if a page ends there, so whether a table is
visited completely is decided at the page ends: `Separated` is what has to hold of the filter of each
row that ends a page, and it is exactly that (`follow_iff`).

## Main definitions

* `Page`, `page`, `follow` — a request, and following the cursors until there are no more pages
* `Visits` — the pages are the rows, each once and in order, and say when there are more
* `EndsAt`, `Separated` — what the filter of a row that ends a page has to do
* `LooksAhead` — no filter lets through what has been shown

## Main results

* `follow_iff`
* `separated_of_strict` — filters that leave exactly what is behind the row
* `LooksAhead.visits_of_perm` — pages that hold every row hold them in order
-/

namespace Aixinwu

namespace Paging

variable {ρ : Type*}

/-- A page, and whether there are more. -/
structure Page (ρ : Type*) where
  records : List ρ
  more : Bool

/-- The first page of some rows; one row more is looked up. -/
def firstOf (n : ℕ) (rows : List ρ) : Page ρ :=
  let matching := rows.take (n + 1)
  ⟨matching.take n, decide (n < matching.length)⟩

/-- The page behind a cursor, from the rows that its filter lets through. -/
def page (rows : List ρ) (filterOf : ρ → Option (ρ → Bool)) (n : ℕ) (cursor : Option ρ) :
    Option (Page ρ) :=
  match cursor with
  | none => some (firstOf n rows)
  | some c => (filterOf c).map fun passes => firstOf n (rows.filter passes)

/-- Following the cursors while there are more pages, for at most so many requests. -/
def follow (rows : List ρ) (filterOf : ρ → Option (ρ → Bool)) (n : ℕ) :
    ℕ → Option ρ → Option (List (Page ρ))
  | 0, _ => none
  | fuel + 1, cursor =>
    match page rows filterOf n cursor with
    | none => none
    | some p =>
      if p.more then
        match p.records.getLast? with
        | none => none
        | some c => (follow rows filterOf n fuel (some c)).map (p :: ·)
      else some [p]

/-- The pages are the rows, one after another, and each says whether there are further rows. -/
def Visits : List (Page ρ) → List ρ → Prop
  | [], rows => rows = []
  | p :: pages, rows =>
    ∃ later, rows = p.records ++ later ∧ (p.more = true ↔ later ≠ []) ∧ Visits pages later

theorem flatMap_of_visits :
    ∀ {pages : List (Page ρ)} {rows : List ρ}, Visits pages rows →
      pages.flatMap (·.records) = rows
  | [], rows, h => h.symm
  | p :: pages, rows, ⟨later, hrows, _, hlater⟩ => by
    rw [List.flatMap_cons, flatMap_of_visits hlater, hrows]

variable {rows seen rest : List ρ} {filterOf : ρ → Option (ρ → Bool)} {n : ℕ} {c : ρ}

/-- Where a page ends with `c`, so that `seen` and `c` have been shown and `rest` has not, the filter
of `c` keeps back what has been shown, lets through the next page, and lets through something more
if there is more. -/
def EndsAt (filterOf : ρ → Option (ρ → Bool)) (n : ℕ) (seen : List ρ) (c : ρ) (rest : List ρ) :
    Prop :=
  ∃ passes, filterOf c = some passes ∧ (∀ x ∈ seen ++ [c], ¬ passes x) ∧
    (∀ x ∈ rest.take n, passes x) ∧ (rest.drop n ≠ [] → ∃ x ∈ rest.drop n, passes x)

/-- The filters do that at every page end. -/
def Separated (rows : List ρ) (filterOf : ρ → Option (ρ → Bool)) (n : ℕ) : Prop :=
  ∀ seen c rest, rows = seen ++ c :: rest → rest ≠ [] → n ∣ seen.length + 1 →
    EndsAt filterOf n seen c rest

/-- Filters that leave exactly what is behind the row do it for every page size. -/
theorem separated_of_strict
    (h : ∀ seen c rest, rows = seen ++ c :: rest → ∃ passes, filterOf c = some passes ∧
      (∀ x ∈ seen ++ [c], ¬ passes x) ∧ ∀ x ∈ rest, passes x) (n : ℕ) :
    Separated rows filterOf n := by
  intro seen c rest hrows _ _
  obtain ⟨passes, hpasses, hseen, hrest⟩ := h seen c rest hrows
  refine ⟨passes, hpasses, hseen, fun x hx => hrest x (List.mem_of_mem_take hx), fun hmore => ?_⟩
  obtain ⟨x, hx⟩ := List.exists_mem_of_ne_nil _ hmore
  exact ⟨x, hx, hrest x (List.mem_of_mem_drop hx)⟩

/-! ### One page -/

theorem firstOf_eq (n : ℕ) (rows : List ρ) :
    firstOf n rows = ⟨rows.take n, decide (n < rows.length)⟩ := by
  have htake : (rows.take (n + 1)).take n = rows.take n := by
    rw [List.take_take, min_eq_left (Nat.le_succ n)]
  have hlength : n < (rows.take (n + 1)).length ↔ n < rows.length := by
    rw [List.length_take]
    omega
  rw [firstOf, htake]
  exact congrArg _ (decide_eq_decide.mpr hlength)

/-- What a filter leaves where a page ends. -/
theorem filter_split (passes : ρ → Bool) (n : ℕ) (shown rest : List ρ) :
    (shown ++ rest).filter passes
      = shown.filter passes ++ ((rest.take n).filter passes ++ (rest.drop n).filter passes) := by
  rw [List.filter_append, ← List.filter_append (rest.take n), List.take_append_drop]

/-- **A page behind a cursor** whose filter does what it should is the next page. -/
theorem EndsAt.page_eq (h : EndsAt filterOf n seen c rest)
    (hrows : rows = seen ++ c :: rest) :
    page rows filterOf n (some c) = some ⟨rest.take n, decide (n < rest.length)⟩ := by
  obtain ⟨passes, hpasses, hseen, hnext, hmore⟩ := h
  have hshown : (seen ++ [c]).filter passes = [] :=
    List.filter_eq_nil_iff.mpr fun x hx => by simpa using hseen x hx
  have htake : (rest.take n).filter passes = rest.take n := List.filter_eq_self.mpr hnext
  have hsplit : rows.filter passes = rest.take n ++ (rest.drop n).filter passes := by
    have hlist : seen ++ c :: rest = (seen ++ [c]) ++ rest := by simp
    rw [hrows, hlist, filter_split passes n, hshown, htake, List.nil_append]
  have hlen : (rest.take n).length = min n rest.length := List.length_take
  have hflag : n < (rows.filter passes).length ↔ n < rest.length := by
    rw [hsplit, List.length_append, hlen]
    constructor
    · intro hlt
      by_contra hle
      have hdrop : rest.drop n = [] := List.drop_eq_nil_of_le (not_lt.mp hle)
      rw [hdrop] at hlt
      simp only [List.filter_nil, List.length_nil] at hlt
      omega
    · intro hlt
      have hdrop : rest.drop n ≠ [] := by
        intro hnil
        have hle := List.drop_eq_nil_iff.mp hnil
        omega
      obtain ⟨x, hx, hpass⟩ := hmore hdrop
      have hpos := List.length_pos_of_mem (List.mem_filter.mpr ⟨hx, hpass⟩)
      omega
  have hrecords : (rows.filter passes).take n = rest.take n := by
    rw [hsplit]
    by_cases hlt : n ≤ rest.length
    · exact List.take_left' (by omega)
    · have hdrop : rest.drop n = [] := List.drop_eq_nil_of_le (by omega)
      rw [hdrop, List.filter_nil, List.append_nil, List.take_take, min_self]
  rw [page, hpasses, Option.map_some, firstOf_eq, hrecords]
  exact congrArg (fun b => some (⟨rest.take n, b⟩ : Page ρ)) (decide_eq_decide.mpr hflag)

/-- Conversely a filter behind which the next page is found does what it should. -/
theorem EndsAt.of_page {p : Page ρ} {later : List ρ} (hnodup : rows.Nodup) (hn : 0 < n)
    (hrows : rows = seen ++ c :: rest)
    (hpage : page rows filterOf n (some c) = some p) (hp : rest = p.records ++ later)
    (hmore : p.more = true ↔ later ≠ []) : EndsAt filterOf n seen c rest := by
  rw [page] at hpage
  obtain ⟨passes, hpasses, rfl⟩ := Option.map_eq_some_iff.mp hpage
  rw [firstOf_eq] at hp hmore
  have hlist : seen ++ c :: rest = (seen ++ [c]) ++ rest := by simp
  rw [hlist] at hrows
  have hsplit : rows.filter passes = (seen ++ [c]).filter passes ++ rest.filter passes := by
    rw [hrows, List.filter_append]
  have hdisjoint : List.Disjoint (seen ++ [c]) rest := by
    rw [hrows] at hnodup
    exact (List.nodup_append'.mp hnodup).2.2
  -- the first row of the page is not among those shown
  have hshown : (seen ++ [c]).filter passes = [] := by
    rcases hfilter : (seen ++ [c]).filter passes with _ | ⟨x, l⟩
    · rfl
    · exfalso
      have hx : x ∈ seen ++ [c] :=
        List.mem_of_mem_filter (hfilter ▸ List.mem_cons_self : x ∈ (seen ++ [c]).filter passes)
      obtain ⟨m, rfl⟩ : ∃ m, n = m + 1 := ⟨n - 1, by omega⟩
      rw [hsplit, hfilter] at hp
      have hxrest : x ∈ rest := by
        rw [hp]
        exact List.mem_append_left _ (by simp)
      exact hdisjoint hx hxrest
  rw [hsplit, hshown, List.nil_append] at hp hmore
  have hlength : rest.length = min n (rest.filter passes).length + later.length := by
    have hlen := congrArg List.length hp
    rwa [List.length_append, List.length_take] at hlen
  have hle : (rest.filter passes).length ≤ rest.length := List.length_filter_le _ _
  -- the page is the beginning of what follows
  have htake : rest.take n = (rest.filter passes).take n := by
    by_cases hlt : n < (rest.filter passes).length
    · rw [hp]
      rw [List.take_left' (by rw [List.length_take]; omega), ← hp]
    · have hlater : later = [] := by
        by_contra hne
        have := hmore.mpr hne
        exact hlt (of_decide_eq_true this)
      rw [hlater, List.append_nil] at hp
      have hall : (rest.filter passes).take n = rest.filter passes :=
        List.take_of_length_le (by omega)
      have hp : rest = rest.filter passes := hp.trans hall
      rw [hall, ← hp]
      exact List.take_of_length_le (by rw [hp]; omega)
  refine ⟨passes, hpasses, fun x hx hpass => ?_, fun x hx => ?_, fun hdrop => ?_⟩
  · have hmem := List.mem_filter.mpr ⟨hx, hpass⟩
    rw [hshown] at hmem
    cases hmem
  · rw [htake] at hx
    exact (List.mem_filter.mp (List.mem_of_mem_take hx)).2
  · have hlong : n < rest.length := by
      by_contra hle
      exact hdrop (List.drop_eq_nil_of_le (not_lt.mp hle))
    have hlater : later ≠ [] := by
      intro hnil
      rw [hnil, List.length_nil, add_zero] at hlength
      omega
    have hmany : n < (rest.filter passes).length := of_decide_eq_true (hmore.mpr hlater)
    have hparts : rest.filter passes
        = (rest.take n).filter passes ++ (rest.drop n).filter passes := by
      rw [← List.filter_append, List.take_append_drop]
    have hfirst : ((rest.take n).filter passes).length ≤ n :=
      (List.length_filter_le _ _).trans (by rw [List.length_take]; omega)
    have hpos : 0 < ((rest.drop n).filter passes).length := by
      have hlen := congrArg List.length hparts
      rw [List.length_append] at hlen
      omega
    obtain ⟨x, hx⟩ := List.exists_mem_of_length_pos hpos
    exact ⟨x, (List.mem_filter.mp hx).1, (List.mem_filter.mp hx).2⟩

/-! ### All pages -/

/-- Where a client stands: what it has seen, whole pages, and the cursor it goes on with. -/
structure Stands (rows : List ρ) (n : ℕ) (seen : List ρ) (cursor : Option ρ) (rest : List ρ) :
    Prop where
  rows : rows = seen ++ rest
  pages : n ∣ seen.length
  cursor : (cursor = none ∧ seen = []) ∨
    ∃ shown c, seen = shown ++ [c] ∧ cursor = some c ∧ rest ≠ []

variable {cursor : Option ρ}

theorem stands_none (rows : List ρ) (n : ℕ) : Stands rows n [] none rows :=
  ⟨rfl, Nat.dvd_zero n, .inl ⟨rfl, rfl⟩⟩

/-- After a full page the client stands behind it. -/
theorem Stands.next (h : Stands rows n seen cursor rest) (hn : 0 < n) (hmore : n < rest.length) :
    ∃ c, (rest.take n).getLast? = some c ∧
      Stands rows n (seen ++ rest.take n) (some c) (rest.drop n) := by
  have hlength : (rest.take n).length = n := by
    rw [List.length_take]
    omega
  have hne : rest.take n ≠ [] := by
    intro hnil
    rw [hnil] at hlength
    exact hn.ne' hlength.symm
  refine ⟨(rest.take n).getLast hne, List.getLast?_eq_some_getLast hne, ?_, ?_, .inr ?_⟩
  · rw [h.rows, List.append_assoc, List.take_append_drop]
  · rw [List.length_append, hlength]
    exact Nat.dvd_add h.pages (Nat.dvd_refl n)
  · refine ⟨seen ++ (rest.take n).dropLast, (rest.take n).getLast hne, ?_, rfl, ?_⟩
    · rw [List.append_assoc, List.dropLast_append_getLast hne]
    · intro hnil
      have hle := List.drop_eq_nil_iff.mp hnil
      omega

/-- Where the filters do what they should, the page is the next one. -/
theorem Stands.page_eq (h : Stands rows n seen cursor rest) (hsep : Separated rows filterOf n) :
    page rows filterOf n cursor = some ⟨rest.take n, decide (n < rest.length)⟩ := by
  rcases h.cursor with ⟨rfl, rfl⟩ | ⟨shown, c, rfl, rfl, hrest⟩
  · have hrows : rows = rest := h.rows
    rw [page, firstOf_eq, hrows]
  · have hlist : rows = shown ++ c :: rest := by
      rw [h.rows]
      simp
    have hpages := h.pages
    rw [List.length_append, List.length_singleton] at hpages
    exact (hsep shown c rest hlist hrest hpages).page_eq hlist

theorem visits_of_separated (hn : 0 < n) (hsep : Separated rows filterOf n)
    (h : Stands rows n seen cursor rest) :
    ∃ fuel pages, follow rows filterOf n fuel cursor = some pages ∧ Visits pages rest := by
  induction hlen : rest.length using Nat.strong_induction_on generalizing seen cursor rest with
  | _ m ih =>
    subst hlen
    have hpage := h.page_eq hsep
    by_cases hmore : n < rest.length
    · obtain ⟨c, hlast, hnext⟩ := h.next hn hmore
      have hshorter : (rest.drop n).length < rest.length := by
        rw [List.length_drop]
        omega
      obtain ⟨fuel, pages, hfollow, hvisits⟩ := ih _ hshorter hnext rfl
      refine ⟨fuel + 1, ⟨rest.take n, true⟩ :: pages, ?_, rest.drop n, ?_, ?_, hvisits⟩
      · rw [follow, hpage, decide_eq_true hmore]
        simp only [if_true, hlast, hfollow, Option.map_some]
      · exact (List.take_append_drop n rest).symm
      · refine iff_of_true rfl fun hnil => ?_
        have hle := List.drop_eq_nil_iff.mp hnil
        omega
    · refine ⟨1, [⟨rest.take n, false⟩], ?_, [], ?_, ?_, rfl⟩
      · rw [follow, hpage, decide_eq_false hmore]
        simp
      · rw [List.append_nil]
        exact (List.take_of_length_le (not_lt.mp hmore)).symm
      · simp

/-- A page is the beginning of some of the rows, in their order. -/
theorem exists_of_page {p : Page ρ} (h : page rows filterOf n cursor = some p) :
    ∃ l : List ρ, l.Sublist rows ∧ p = ⟨l.take n, decide (n < l.length)⟩ := by
  rw [page.eq_def] at h
  split at h
  · exact ⟨rows, List.Sublist.refl rows, (Option.some.inj h).symm.trans (firstOf_eq n rows)⟩
  · obtain ⟨passes, -, rfl⟩ := Option.map_eq_some_iff.mp h
    exact ⟨rows.filter passes, List.filter_sublist, firstOf_eq n _⟩

/-- What a client that is not at its end has been handed: a page, and what follows from its last
row. -/
theorem follow_eq_some {fuel : ℕ} {pages : List (Page ρ)}
    (h : follow rows filterOf n fuel cursor = some pages) :
    ∃ fuel' p pages', fuel = fuel' + 1 ∧ pages = p :: pages' ∧
      page rows filterOf n cursor = some p ∧
      ((p.more = true ∧ ∃ c, p.records.getLast? = some c ∧
          follow rows filterOf n fuel' (some c) = some pages') ∨
        (p.more = false ∧ pages' = [])) := by
  cases fuel with
  | zero => cases h
  | succ fuel =>
    rw [follow] at h
    rcases hpage : page rows filterOf n cursor with _ | p
    · rw [hpage] at h
      cases h
    simp only [hpage] at h
    split at h
    · rename_i hmore
      split at h
      · cases h
      · rename_i c hlast
        obtain ⟨pages', hfollow, rfl⟩ := Option.map_eq_some_iff.mp h
        exact ⟨fuel, p, pages', rfl, rfl, rfl, .inl ⟨hmore, c, hlast, hfollow⟩⟩
    · rename_i hmore
      obtain rfl := Option.some.inj h
      exact ⟨fuel, p, [], rfl, rfl, rfl, .inr ⟨Bool.eq_false_iff.mpr hmore, rfl⟩⟩

/-- However many requests a client is ready to make, the pages it comes to are the same. -/
theorem follow_unique {fuel fuel' : ℕ} {pages pages' : List (Page ρ)}
    (h : follow rows filterOf n fuel cursor = some pages)
    (h' : follow rows filterOf n fuel' cursor = some pages') : pages = pages' := by
  induction fuel generalizing fuel' cursor pages pages' with
  | zero => cases h
  | succ fuel ih =>
    obtain ⟨m, p, later, hm, rfl, hpage, hrest⟩ := follow_eq_some h
    obtain ⟨m', p', later', rfl, rfl, hpage', hrest'⟩ := follow_eq_some h'
    obtain rfl := Nat.succ.inj hm
    obtain rfl := Option.some.inj (hpage.symm.trans hpage')
    rcases hrest with ⟨hmore, c, hlast, hfollow⟩ | ⟨hend, rfl⟩
    · rcases hrest' with ⟨-, c', hlast', hfollow'⟩ | ⟨hend', -⟩
      · obtain rfl := Option.some.inj (hlast.symm.trans hlast')
        rw [ih hfollow hfollow']
      · exact absurd (hmore.symm.trans hend') (by simp)
    · rcases hrest' with ⟨hmore', -⟩ | ⟨-, rfl⟩
      · exact absurd (hmore'.symm.trans hend) (by simp)
      · rfl

/-- The filters do what they should at every page end from where the client stands. -/
theorem separated_of_visits (hn : 0 < n) (hnodup : rows.Nodup) {fuel : ℕ} {pages : List (Page ρ)}
    (hfollow : follow rows filterOf n fuel cursor = some pages) (hvisits : Visits pages rest)
    (h : Stands rows n seen cursor rest) {shown later : List ρ}
    (hrows : rows = shown ++ c :: later) (hlater : later ≠ []) (hpages : n ∣ shown.length + 1)
    (hbehind : seen.length ≤ shown.length + 1) : EndsAt filterOf n shown c later := by
  induction fuel generalizing seen cursor rest pages with
  | zero => cases hfollow
  | succ fuel ih =>
    obtain ⟨fuel', p, pages, hfuel, rfl, hpage, hrest⟩ := follow_eq_some hfollow
    obtain rfl := Nat.succ.inj hfuel
    obtain ⟨unseen, hunseen, hflag, hvisits⟩ := hvisits
    have htotal := congrArg List.length (h.rows.symm.trans hrows)
    rw [hunseen, List.length_append, List.length_append, List.length_append,
      List.length_cons] at htotal
    have hlaterpos := List.length_pos_of_ne_nil hlater
    obtain ⟨l, -, rfl⟩ := exists_of_page hpage
    have hshort : (l.take n).length ≤ n := List.length_take_le n l
    rcases Nat.lt_or_ge seen.length (shown.length + 1) with hlt | hge
    · -- the page end lies further on, so there is a further page
      obtain ⟨a, ha⟩ := h.pages
      obtain ⟨b, hb⟩ := hpages
      have hstep : seen.length + n ≤ shown.length + 1 := by
        rw [ha, hb] at hlt
        calc seen.length + n = n * (a + 1) := by rw [ha, Nat.mul_succ]
          _ ≤ n * b := Nat.mul_le_mul_left n (Nat.lt_of_mul_lt_mul_left hlt)
          _ = shown.length + 1 := hb.symm
      have hne : unseen ≠ [] := by
        intro hnil
        rw [hnil, List.length_nil] at htotal
        dsimp only at htotal
        omega
      have hmore : n < l.length := of_decide_eq_true (hflag.mpr hne)
      rcases hrest with ⟨-, c', hlast, hfollow⟩ | ⟨hend, -⟩
      · have hfull : (l.take n).length = n := by
          rw [List.length_take]
          omega
        obtain ⟨init, hinit⟩ := List.getLast?_eq_some_iff.mp hlast
        have hstands : Stands rows n (seen ++ l.take n) (some c') unseen := by
          refine ⟨?_, ?_, .inr ⟨seen ++ init, c', ?_, rfl, hne⟩⟩
          · rw [h.rows, hunseen, List.append_assoc]
          · rw [List.length_append, hfull]
            exact Nat.dvd_add h.pages (Nat.dvd_refl n)
          · rw [List.append_assoc, ← hinit]
        refine ih hfollow hvisits hstands ?_
        rw [List.length_append, hfull]
        exact hstep
      · exact absurd (hflag.mpr hne) (Bool.eq_false_iff.mp hend)
    · -- the client stands at this page end
      have hsame : seen.length = (shown ++ [c]).length := by
        rw [List.length_append, List.length_singleton]
        omega
      have hsplit : seen ++ rest = (shown ++ [c]) ++ later := by
        rw [← h.rows, hrows]
        simp
      obtain ⟨rfl, rfl⟩ := List.append_inj hsplit hsame
      have hcursor : cursor = some c := by
        rcases h.cursor with ⟨-, hnil⟩ | ⟨shown', c', heq, hcursor, -⟩
        · exact absurd hnil (by simp)
        · rw [hcursor, (List.append_inj' heq rfl).2 |> List.singleton_inj.mp]
      subst hcursor
      exact EndsAt.of_page hnodup hn hrows hpage hunseen hflag

/-- **Following the cursors visits every row once** exactly when the filters do what they should at
the page ends. -/
theorem follow_iff (hn : 0 < n) (hnodup : rows.Nodup) :
    (∃ fuel pages, follow rows filterOf n fuel none = some pages ∧ Visits pages rows) ↔
      Separated rows filterOf n := by
  constructor
  · rintro ⟨fuel, pages, hfollow, hvisits⟩ shown c later hrows hlater hpages
    exact separated_of_visits hn hnodup hfollow hvisits (stands_none rows n) hrows hlater hpages
      (Nat.zero_le _)
  · intro hsep
    exact visits_of_separated hn hsep (stands_none rows n)

/-! ### The concatenation of the pages -/

/-- Some of the rows, in their order, end with the last row if they have it. -/
theorem eq_nil_of_sublist {init before after : List ρ} {last : ρ}
    (hnodup : (init ++ [last]).Nodup) (h : (before ++ last :: after).Sublist (init ++ [last])) :
    after = [] := by
  have hrev := h.reverse
  rw [List.reverse_append, List.reverse_append, List.reverse_cons, List.reverse_singleton,
    List.singleton_append] at hrev
  have hlast : last ∉ init := fun hmem => by
    have hdisjoint := (List.nodup_append'.mp hnodup).2.2
    exact hdisjoint hmem (List.mem_singleton_self last)
  rcases hafter : after.reverse with _ | ⟨x, later⟩
  · exact List.reverse_eq_nil_iff.mp hafter
  · exfalso
    rw [hafter] at hrev
    rcases List.sublist_cons_iff.mp hrev with hrest | ⟨r, hr, hrest⟩
    · exact hlast (List.mem_reverse.mp (hrest.subset (by simp)))
    · obtain ⟨rfl, rfl⟩ := List.cons.inj hr
      exact hlast (List.mem_reverse.mp (hrest.subset (by simp)))

/-- **Pages whose concatenation is the rows** say rightly whether there are further rows: behind the
last row there is nothing to be looked up. -/
theorem visits_of_flatMap (hn : 0 < n) (hnodup : rows.Nodup) {fuel : ℕ} {pages : List (Page ρ)}
    (hfollow : follow rows filterOf n fuel cursor = some pages)
    (hrows : rows = seen ++ pages.flatMap (·.records)) : Visits pages (pages.flatMap (·.records)) := by
  induction fuel generalizing seen cursor pages with
  | zero => cases hfollow
  | succ fuel ih =>
    obtain ⟨fuel', p, pages, hfuel, rfl, hpage, hrest⟩ := follow_eq_some hfollow
    obtain rfl := Nat.succ.inj hfuel
    rw [List.flatMap_cons] at hrows ⊢
    rcases hrest with ⟨hmore, c, -, hfollow⟩ | ⟨hend, rfl⟩
    · have hlater : pages.flatMap (·.records) ≠ [] := by
        intro hnil
        obtain ⟨l, hl, rfl⟩ := exists_of_page hpage
        have hlong : n < l.length := of_decide_eq_true hmore
        have hne : l.take n ≠ [] := by
          intro htake
          rcases List.take_eq_nil_iff.mp htake with hzero | rfl
          · exact hn.ne' hzero
          · exact absurd hlong (Nat.not_lt_zero n)
        rw [hnil, List.append_nil] at hrows
        -- the page ends with the last row, and something was looked up behind it
        have hinit := List.dropLast_append_getLast hne
        have hwhole : rows = (seen ++ (l.take n).dropLast) ++ [(l.take n).getLast hne] := by
          rw [List.append_assoc, hinit]
          exact hrows
        have hsub : ((l.take n).dropLast ++ (l.take n).getLast hne :: l.drop n).Sublist
            ((seen ++ (l.take n).dropLast) ++ [(l.take n).getLast hne]) := by
          have hlist : (l.take n).dropLast ++ (l.take n).getLast hne :: l.drop n = l := by
            rw [← List.singleton_append, ← List.append_assoc, hinit, List.take_append_drop]
          rw [hlist, ← hwhole]
          exact hl
        have hdrop := eq_nil_of_sublist (hwhole ▸ hnodup) hsub
        have hshort := List.drop_eq_nil_iff.mp hdrop
        omega
      exact ⟨_, rfl, iff_of_true hmore hlater, ih hfollow ((List.append_assoc ..).symm ▸ hrows)⟩
    · refine ⟨[], by simp, ?_, rfl⟩
      simpa using hend

/-! ### Filters that only look ahead -/

/-- Filters that keep back what has been shown; they may keep back more. -/
def LooksAhead (rows : List ρ) (filterOf : ρ → Option (ρ → Bool)) : Prop :=
  ∀ seen c rest, rows = seen ++ c :: rest → ∃ passes, filterOf c = some passes ∧
    ∀ x ∈ seen ++ [c], ¬ passes x

/-- A client that looks ahead is handed a sublist of the rows that it has not seen; if that is as
long, they are all the rows. -/
theorem LooksAhead.sublist (h : LooksAhead rows filterOf) {fuel : ℕ}
    {pages : List (Page ρ)} (hfollow : follow rows filterOf n fuel cursor = some pages)
    (hrows : rows = seen ++ rest)
    (hcursor : (cursor = none ∧ seen = []) ∨ ∃ shown c, seen = shown ++ [c] ∧ cursor = some c) :
    (pages.flatMap (·.records)).Sublist rest ∧
      ((pages.flatMap (·.records)).length = rest.length → Visits pages rest) := by
  induction fuel generalizing seen cursor rest pages with
  | zero => cases hfollow
  | succ fuel ih =>
    obtain ⟨fuel', p, pages, hfuel, rfl, hpage, hrest⟩ := follow_eq_some hfollow
    obtain rfl := Nat.succ.inj hfuel
    -- the page is the beginning of a sublist of what has not been shown
    obtain ⟨l, hl, rfl⟩ : ∃ l : List ρ, l.Sublist rest ∧ p = ⟨l.take n, decide (n < l.length)⟩ := by
      rcases hcursor with ⟨rfl, rfl⟩ | ⟨shown, c, rfl, rfl⟩
      · rw [List.nil_append] at hrows
        rw [page, firstOf_eq, hrows] at hpage
        exact ⟨rest, List.Sublist.refl rest, (Option.some.inj hpage).symm⟩
      · have hlist : rows = shown ++ c :: rest := by
          rw [hrows, List.append_assoc]
          rfl
        obtain ⟨passes, hpasses, hback⟩ := h shown c rest hlist
        have hfilter : rows.filter passes = rest.filter passes := by
          rw [hrows, List.filter_append, List.filter_eq_nil_iff.mpr hback, List.nil_append]
        rw [page, hpasses, Option.map_some, firstOf_eq, hfilter] at hpage
        exact ⟨_, List.filter_sublist, (Option.some.inj hpage).symm⟩
    rcases hrest with ⟨hmore, c, hlast, hfollow⟩ | ⟨hend, rfl⟩
    · have hlong : n < l.length := of_decide_eq_true hmore
      obtain ⟨init, hinit⟩ := List.getLast?_eq_some_iff.mp hlast
      replace hinit : l.take n = init ++ [c] := hinit
      have hshown : (init ++ [c]).Sublist rest := by
        rw [← hinit]
        exact (List.take_sublist n l).trans hl
      obtain ⟨before, after, rfl, hbefore, hafter⟩ := List.append_sublist_iff.mp hshown
      obtain ⟨skipped, later, rfl⟩ := List.append_of_mem (List.singleton_sublist.mp hafter)
      have hsplit : before ++ (skipped ++ c :: later) = (before ++ skipped ++ [c]) ++ later := by
        simp
      rw [hsplit] at hrows hl ⊢
      have hnext : rows = (seen ++ (before ++ skipped ++ [c])) ++ later := by
        rw [hrows, List.append_assoc seen]
      obtain ⟨hsub, hvisits⟩ := ih hfollow hnext (.inr ⟨seen ++ (before ++ skipped), c, by simp, rfl⟩)
      have htake : (init ++ [c]).Sublist (before ++ skipped ++ [c]) :=
        (hbefore.trans (List.sublist_append_left before skipped)).append_right [c]
      simp only [List.flatMap_cons, hinit]
      refine ⟨htake.append hsub, fun hlength => ?_⟩
      have htotal : (before ++ skipped ++ [c] ++ later).length
          = (before ++ skipped ++ [c]).length + later.length := List.length_append
      rw [List.length_append, htotal] at hlength
      have hle := htake.length_le
      have hle' := hsub.length_le
      have heq : init ++ [c] = before ++ skipped ++ [c] := htake.eq_of_length (by omega)
      refine ⟨later, ?_, iff_of_true hmore ?_, hvisits (by omega)⟩
      · rw [heq]
      · rintro rfl
        have hmany := hl.length_le
        rw [List.append_nil, ← heq, ← hinit, List.length_take] at hmany
        omega
    · have hshort : l.take n = l :=
        List.take_of_length_le (not_lt.mp (of_decide_eq_false hend))
      simp only [List.flatMap_cons, List.flatMap_nil, List.append_nil, hshort]
      refine ⟨hl, fun hlength => ⟨[], ?_, ?_, rfl⟩⟩
      · rw [List.append_nil, hl.eq_of_length hlength]
      · simpa using hend

/-- **Seeing every row, in whatever order, is visiting them**, if the filters only look ahead. -/
theorem LooksAhead.visits_of_perm (h : LooksAhead rows filterOf) {fuel : ℕ}
    {pages : List (Page ρ)} (hfollow : follow rows filterOf n fuel none = some pages)
    (hperm : (pages.flatMap (·.records)).Perm rows) : Visits pages rows :=
  (h.sublist hfollow (List.nil_append rows).symm (.inl ⟨rfl, rfl⟩)).2 hperm.length_eq

end Paging

end Aixinwu
