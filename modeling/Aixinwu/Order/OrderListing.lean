import Aixinwu.Core.Pagination
import Aixinwu.Lib.Runs

/-!
# Order numbers and the list of orders

`get_order_number` counts the orders of the current month and adds one, so numbers start again every
month (and are used again when an order is deleted). `Order.Meta.ordering` is `("-number",)`, which
is what a list of orders without `sortBy` is sorted by and what its cursors are made of. The filter
of a cursor asks for a smaller number, so orders of the cursor's number that did not fit on the page
are never seen, and nothing else is lost (`visitsEveryOrder_iff`).

The database is free to hand out orders of one number in any order; the rows of a listing are taken
in an arbitrary arrangement, the same for all requests of a client.

## Main definitions

* `getOrderNumber`, `step` — orders come and go
* `listing`, `VisitsEveryOrder`
* `NumbersDifferAtPageEnds`

## Main results

* `visitsEveryOrder_iff`
-/

namespace Aixinwu

namespace OrderListing

open Connections

/-- An order: of `created_at` the month, counted through the years. -/
structure Order where
  id : ℕ
  createdAt : ℕ
  number : ℕ
deriving DecidableEq, Repr

/-- `get_order_number`, in the current month. -/
def getOrderNumber (month : ℕ) (orders : List Order) : ℕ :=
  (orders.filter fun o => month ≤ o.createdAt).length + 1

/-- What happens to orders: one is created, in the current month and, if it is imported, with a
`created_at` of its own; one is deleted. -/
inductive Event where
  | create (id month createdAt : ℕ)
  | delete (id : ℕ)
deriving DecidableEq, Repr

/-- The orders after an event; ids are unique. -/
def step (orders : List Order) : Event → List Order
  | .create id month createdAt =>
    if id ∈ orders.map (·.id) then orders
    else orders ++ [⟨id, createdAt, getOrderNumber month orders⟩]
  | .delete id => orders.filter fun o => o.id ≠ id

/-- The orders that a history leaves. -/
def ordersAfter (events : List Event) : List Order := Runs.run step [] events

/-- The columns that a list of orders is sorted by. -/
def column (o : Order) (name : String) : Option (Value ℕ) :=
  if name = "number" then some (.number o.number)
  else if name = "id" then some (.number o.id)
  else none

/-- A list of orders without `sortBy`. -/
def listing (table : List Order) : Listing Order ℕ where
  field := column
  modelOrdering := [("number", true)]
  table := table

/-- Going from the first page to the last shows every order exactly once. -/
def VisitsEveryOrder (table : List Order) (n : ℕ) : Prop :=
  ∃ fuel pages,
    followLinks (·.hasNextPage) (·.endCursor) ((listing table).forward n) fuel none = some pages ∧
      (pages.flatMap fun page => page.edges.map (·.node)).Perm table

/-- Where a page ends, the next order has another number. -/
def NumbersDifferAtPageEnds (rows : List Order) (n : ℕ) : Prop :=
  ∀ seen c next rest, rows = seen ++ c :: next :: rest → n ∣ seen.length + 1 →
    next.number ≠ c.number

/-! ### Ids are unique -/

theorem step_nodup {orders : List Order} (h : (orders.map (·.id)).Nodup) (event : Event) :
    ((step orders event).map (·.id)).Nodup := by
  cases event with
  | create id month createdAt =>
    rw [step]
    split
    · exact h
    · rename_i hnew
      rw [List.map_append]
      exact List.nodup_append'.mpr ⟨h, List.nodup_singleton _, by simpa using hnew⟩
  | delete id =>
    rw [step]
    exact h.sublist (List.filter_sublist.map _)

theorem nodup_ordersAfter (events : List Event) : ((ordersAfter events).map (·.id)).Nodup := by
  rw [ordersAfter]
  induction events using List.reverseRecOn with
  | nil => exact List.nodup_nil
  | append_singleton events event ih =>
    rw [Runs.run_append]
    exact step_nodup ih event

/-! ### The list -/

variable {table : List Order} {n : ℕ}

theorem precedes_number (a b : Order) :
    precedes column [("number", true)] a b = decide (b.number < a.number) := by
  have hnumber : ∀ o : Order, column o "number" = some (.number o.number) := fun _ => rfl
  rw [precedes, hnumber, hnumber]
  by_cases h : a.number = b.number
  · simp [precedes, h]
  · simp [nullsLast, h]

theorem listing_rows (table : List Order) :
    (listing table).rows false = sortRows column [("number", true)] table := rfl

/-- The filter of a cursor asks for a smaller number. -/
theorem listing_filterOf (c : Order) : (listing table).filterOf false c
    = some fun x => decide (x.number < c.number) := by
  have hfilter : prepareFilter column ["number"] true (cursorOf column ["number"] c)
      = some (precedes column [("number", true)] c) :=
    prepareFilter_eq (by decide) List.mem_cons_self (by simp [column])
  refine hfilter.trans (congrArg some ?_)
  funext x
  exact precedes_number c x

/-- Numbers do not rise along the rows. -/
theorem rows_pairwise (table : List Order) :
    ((listing table).rows false).Pairwise fun a b => b.number ≤ a.number := by
  rw [listing_rows]
  refine (sortRows_pairwise _ table).imp fun {a b} h => ?_
  rw [precedes_number] at h
  exact not_lt.mp (of_decide_eq_false h)

/-- What follows a row in the list. -/
theorem number_le {seen rest : List Order} {c x : Order}
    (hrows : (listing table).rows false = seen ++ c :: rest) (hx : x ∈ rest) :
    x.number ≤ c.number := by
  have hsorted := rows_pairwise table
  rw [hrows, List.pairwise_append] at hsorted
  exact (List.pairwise_cons.mp hsorted.2.1).1 x hx

theorem le_number {seen rest : List Order} {c x : Order}
    (hrows : (listing table).rows false = seen ++ c :: rest) (hx : x ∈ seen ++ [c]) :
    c.number ≤ x.number := by
  have hsorted := rows_pairwise table
  rw [hrows, List.pairwise_append] at hsorted
  rcases List.mem_append.mp hx with hx | hx
  · exact hsorted.2.2 x hx c List.mem_cons_self
  · rw [List.mem_singleton.mp hx]

theorem looksAhead (table : List Order) :
    Paging.LooksAhead ((listing table).rows false) ((listing table).filterOf false) := by
  intro seen c rest hrows
  refine ⟨_, listing_filterOf c, fun x hx hpass => ?_⟩
  exact absurd (of_decide_eq_true hpass) (not_lt.mpr (le_number hrows hx))

/-- The filters separate the rows where no two orders of one number are torn apart. -/
theorem separated_iff (hn : 0 < n) :
    Paging.Separated ((listing table).rows false) ((listing table).filterOf false) n ↔
      NumbersDifferAtPageEnds ((listing table).rows false) n := by
  constructor
  · intro hsep seen c next rest hrows hpages
    obtain ⟨passes, hpasses, -, hnext, -⟩ :=
      hsep seen c (next :: rest) hrows (List.cons_ne_nil next rest) hpages
    rw [listing_filterOf] at hpasses
    obtain rfl := Option.some.inj hpasses
    have hmem : next ∈ (next :: rest).take n := by
      obtain ⟨m, rfl⟩ : ∃ m, n = m + 1 := ⟨n - 1, by omega⟩
      exact List.mem_cons_self
    exact (of_decide_eq_true (hnext next hmem)).ne
  · intro hdiffer seen c rest hrows hrest hpages
    obtain ⟨next, rest, rfl⟩ := List.exists_cons_of_ne_nil hrest
    have hlt : next.number < c.number :=
      lt_of_le_of_ne (number_le hrows List.mem_cons_self) (hdiffer seen c next rest hrows hpages)
    -- what comes later has no larger number than the next order
    have hrows' : (listing table).rows false = (seen ++ [c]) ++ next :: rest := by
      rw [hrows, List.append_assoc]
      rfl
    have hlater : ∀ x ∈ next :: rest, x.number < c.number := by
      intro x hx
      rcases List.mem_cons.mp hx with rfl | hx
      · exact hlt
      · exact (number_le hrows' hx).trans_lt hlt
    refine ⟨_, listing_filterOf c, fun x hx hpass => ?_, fun x hx => ?_, fun hmore => ?_⟩
    · exact absurd (of_decide_eq_true hpass) (not_lt.mpr (le_number hrows hx))
    · exact decide_eq_true (hlater x (List.mem_of_mem_take hx))
    · obtain ⟨x, hx⟩ := List.exists_mem_of_ne_nil _ hmore
      exact ⟨x, hx, decide_eq_true (hlater x (List.mem_of_mem_drop hx))⟩

/-- Seeing every order once is visiting the rows. -/
theorem visitsEveryOrder_eq (hn : 0 < n) :
    VisitsEveryOrder table n ↔ ∃ fuel pages, Paging.follow ((listing table).rows false)
      ((listing table).filterOf false) n fuel none = some pages ∧
        Paging.Visits pages ((listing table).rows false) := by
  have hperm : ((listing table).rows false).Perm table := sortRows_perm _ table
  rw [← (answers_forward (listing table) hn).exists_iff hn (Paging.Visits · _)]
  have hnodes : ∀ pages : List (Connection Order ℕ),
      (pages.map nextPage).flatMap (·.records) = pages.flatMap fun page => page.edges.map (·.node) :=
    fun pages => List.flatMap_map _ _ pages
  constructor
  · rintro ⟨fuel, pages, hpages, hvisited⟩
    refine ⟨fuel, pages, hpages, ?_⟩
    have hfollow := followLinks_eq hn (answers_forward (listing table) hn) fuel none
    rw [Option.map_none] at hfollow
    have hlinks := congrArg (Option.map fun pages => pages.map nextPage) hpages
    refine (looksAhead table).visits_of_perm (hfollow.symm.trans hlinks) ?_
    rw [hnodes]
    exact hvisited.trans hperm.symm
  · rintro ⟨fuel, pages, hpages, hvisits⟩
    refine ⟨fuel, pages, hpages, ?_⟩
    rw [← hnodes, Paging.flatMap_of_visits hvisits]
    exact hperm

theorem visitsEveryOrder_of_nodup (hnodup : table.Nodup) (hn : 0 < n) :
    VisitsEveryOrder table n ↔ NumbersDifferAtPageEnds ((listing table).rows false) n := by
  rw [visitsEveryOrder_eq hn, ← separated_iff hn]
  exact Paging.follow_iff hn ((sortRows_perm _ table).nodup_iff.mpr hnodup)

/-- **Going through the orders shows every order once** exactly where no page ends between two
orders with the same number. The list holds those of the orders that pass its filters. -/
theorem visitsEveryOrder_iff (events : List Event) (listed : Order → Bool) (table : List Order)
    (htable : table.Perm ((ordersAfter events).filter listed)) (n : ℕ) (hn : 0 < n) :
    VisitsEveryOrder table n ↔ NumbersDifferAtPageEnds ((listing table).rows false) n := by
  refine visitsEveryOrder_of_nodup (htable.nodup_iff.mpr (List.Nodup.filter _ ?_)) hn
  exact (nodup_ordersAfter events).of_map _

/-- One order in a month and three in the next, two on a page: the orders with number 1 are on the
second page. -/
theorem visitsEveryOrder_two_months : VisitsEveryOrder
    (ordersAfter [.create 0 1 1, .create 1 2 2, .create 2 2 2, .create 3 2 2]) 2 := by
  refine (visitsEveryOrder_iff _ (fun _ => true) _ (by rw [List.filter_true]) 2 two_pos).mpr ?_
  have hrows : (listing (ordersAfter
      [.create 0 1 1, .create 1 2 2, .create 2 2 2, .create 3 2 2])).rows false
      = [⟨3, 2, 3⟩, ⟨2, 2, 2⟩, ⟨0, 1, 1⟩, ⟨1, 2, 1⟩] := by decide +kernel
  intro seen c next rest hlist hpages
  rw [hrows] at hlist
  rcases seen with _ | ⟨x, _ | ⟨y, seen⟩⟩
  · exact absurd hpages (by decide)
  · simp only [List.cons_append, List.nil_append, List.cons.injEq] at hlist
    obtain ⟨-, rfl, rfl, -⟩ := hlist
    decide
  · have hlength := congrArg List.length hlist
    simp only [List.length_append, List.length_cons, List.length_nil] at hlength hpages
    omega

/-- One order in a month and one in the next, one on a page: the second page is empty. -/
theorem not_visitsEveryOrder_two_months :
    ¬ VisitsEveryOrder (ordersAfter [.create 0 1 1, .create 1 2 2]) 1 := by
  have hnodup : (ordersAfter [.create 0 1 1, .create 1 2 2]).Nodup :=
    (nodup_ordersAfter [.create 0 1 1, .create 1 2 2]).of_map _
  rw [visitsEveryOrder_of_nodup hnodup one_pos]
  intro hdiffer
  have hrows : (listing (ordersAfter [.create 0 1 1, .create 1 2 2])).rows false
      = [] ++ ⟨0, 1, 1⟩ :: ⟨1, 2, 1⟩ :: [] := by decide +kernel
  exact hdiffer [] ⟨0, 1, 1⟩ ⟨1, 2, 1⟩ [] hrows (Nat.dvd_refl 1) rfl

end OrderListing

end Aixinwu
