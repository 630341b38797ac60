import Aixinwu.Lib.Runs
import Aixinwu.Warehouse.Oversell
import Aixinwu.Warehouse.Reserve

/-!
# Reservations over time

A shop at work: checkouts reserve, orders are allocated, time passes and reservations expire. A
stock is overbooked if what is allocated and what is still held exceed its quantity.

A reservation that succeeds gives every line what it asks for, and time only takes away. But lines
of one variant are given the same items, the time of the other lines is set anew even where they had
expired, and an allocation does not count the reservations of its own checkout, or none at all, and
with reservations checked it does not count what is allocated. A run whose steps fit all the same
overbooks nothing.

## Main definitions

* `allocatedIn`, `reservedIn`, `heldBy`, `NotOverbooked`
* `Shop`, `ShopRequest`, `serveShop`
* `ShopRequest.Fits`, `ShopRequest.Held`

## Main results

* `reservedIn_reserve`, `heldBy_reserve` — a call that succeeds
* `notOverbooked_serveShop` — one request
* `reservations_notOverbooked` — every run
-/

namespace Aixinwu

namespace Stocks

open Runs

/-- What is held in a stock. -/
def reservedIn (db : Db) (now : Time) (stock : ℕ) : ℤ :=
  sumIf (fun r => decide (r.stock = stock) && decide (now < r.reservedUntil))
    (fun r : Reservation => (r.quantityReserved : ℤ)) db.reservations.rows

/-- What a line of a checkout holds. -/
def heldBy (db : Db) (now : Time) (line : ℕ) : ℤ :=
  sumIf (fun r => decide (r.checkoutLine = some line) && decide (now < r.reservedUntil))
    (fun r : Reservation => (r.quantityReserved : ℤ)) db.reservations.rows

/-- No stock is overbooked. -/
def NotOverbooked (now : Time) (db : Db) : Prop :=
  ∀ s ∈ db.stocks, allocatedIn db s.pk + reservedIn db now s.pk ≤ s.quantity

namespace ReserveCall

variable (c : ReserveCall) (db : Db)

/-- After the call the row is held, by a line that is not reserved in it. -/
def staysHeld (lines : List CheckoutLine) (stock : ℕ) (r : Reservation) : Bool :=
  decide (r.stock = stock) && notOfCheckoutLines (lines.map (·.pk)) r
    && (decide (c.now < r.reservedUntil) || c.updates r)

/-- What other lines hold in a stock after the call. -/
def stillHeld (lines : List CheckoutLine) (stock : ℕ) : ℤ :=
  sumIf (c.staysHeld lines stock) (fun r : Reservation => (r.quantityReserved : ℤ))
    db.reservations.rows

/-- The lines with a variant. -/
def withVariant (lines : List CheckoutLine) (variant : ℕ) : List CheckoutLine :=
  lines.filter fun line => line.variant.pk = variant

/-- The shares of the lines in a stock. -/
def shares (lines : List CheckoutLine) (sorted : List Stock) (s : Stock) : ℤ :=
  sumIf (fun line => decide (line.variant.pk = s.productVariant))
    (fun line => Greedy.share (c.available db lines) line.quantity s
      (sorted.filter (·.productVariant = s.productVariant))) lines

/-- A reservation in the stock had expired and is held again after the call. -/
def BroughtBack (lines : List CheckoutLine) (stock : ℕ) : Prop :=
  ∃ r ∈ db.reservations.rows, c.staysHeld lines stock r ∧ ¬ c.now < r.reservedUntil

/-- What the lines get in a stock. -/
def given (lines : List CheckoutLine) (s : Stock) : ℤ :=
  match c.sorted db with
  | .ok sorted => if s ∈ sorted then c.shares db lines sorted s else 0
  | .error _ => 0

/-- For a variant of several lines, and where reservations are brought back, everything fits. -/
def Fits : Prop :=
  c.replace ∧ (c.stockLines ≠ [] → ∀ lines, c.lines = .ok lines → ∀ s ∈ db.stocks,
    1 < (withVariant lines s.productVariant).length ∨ c.BroughtBack db lines s.pk →
      allocatedIn db s.pk + c.stillHeld db lines s.pk + c.given db lines s ≤ s.quantity)

end ReserveCall

section Reserve

variable {c : ReserveCall} {db db' : Db} {lines : List CheckoutLine} {sorted : List Stock}

/-! ### The stocks of a call -/

theorem mem_reserve_stocks {s : Stock} (h : s ∈ c.stocks db) : s ∈ db.stocks :=
  List.mem_of_mem_filter ((mem_orderBy _).mp h)

theorem mem_reserve_sorted (h : c.sorted db = .ok sorted) {s : Stock} :
    s ∈ sorted ↔ s ∈ c.stocks db :=
  (sortStocks_perm h).mem_iff

theorem nodup_reserve_sorted (h : c.sorted db = .ok sorted) : sorted.Nodup := by
  refine (sortStocks_perm h).nodup_iff.mpr ?_
  exact (orderBy_perm _ _).nodup_iff.mpr (db.stocks.nodup.of_map.filter _)

/-! ### The new rows -/

theorem now_lt_reservedUntil (c : ReserveCall) : c.now < c.reservedUntil := by
  have hpos : 0 < 60 * c.lengthInMinutes := by
    have := c.positive
    omega
  exact lt_add_of_pos_right c.now hpos

/-- The rows of a line are its own, and held. -/
theorem create_items {line : CheckoutLine}
    (h : c.create db lines sorted line = .filled (c.create db lines sorted line).items)
    {r : Reservation} (hr : r ∈ (c.create db lines sorted line).items) :
    r.checkoutLine = some line.pk ∧ r.reservedUntil = c.reservedUntil := by
  obtain ⟨-, -, hrows⟩ := fillFromStocks_eq_filled h
  rw [hrows] at hr
  obtain ⟨e, -, rfl⟩ := List.mem_map.mp hr
  exact ⟨rfl, rfl⟩

/-- A stock gives a line of its variant its share, and other lines nothing. -/
theorem sumIf_stock_reserved (hsorted : c.sorted db = .ok sorted) {line : CheckoutLine}
    (h : c.create db lines sorted line = .filled (c.create db lines sorted line).items) {s : Stock}
    (hs : s ∈ db.stocks) :
    sumIf (fun r => decide (r.stock = s.pk)) (fun r : Reservation => (r.quantityReserved : ℤ))
        (c.create db lines sorted line).items
      = if s ∈ sorted ∧ line.variant.pk = s.productVariant then
          Greedy.share (c.available db lines) line.quantity s
            (sorted.filter (·.productVariant = s.productVariant))
        else 0 := by
  have hmem : ∀ t ∈ sorted.filter (·.productVariant = line.variant.pk), t ∈ db.stocks := fun t ht =>
    mem_reserve_stocks ((mem_reserve_sorted hsorted).mp (List.mem_of_mem_filter ht))
  have hnodup := (nodup_reserve_sorted hsorted).filter fun s : Stock =>
    decide (s.productVariant = line.variant.pk)
  refine (sumIf_filled ?_ ?_ hmem hnodup h hs).trans ?_
  · exact fun _ _ => rfl
  · exact fun _ _ => rfl
  by_cases hin : s ∈ sorted ∧ line.variant.pk = s.productVariant
  · have hmemf : s ∈ sorted.filter (·.productVariant = line.variant.pk) :=
      List.mem_filter.mpr ⟨hin.1, decide_eq_true hin.2.symm⟩
    rw [if_pos hin, if_pos hmemf, hin.2]
  · rw [if_neg hin, if_neg fun hmemf => hin ?_]
    obtain ⟨hsort, hvariant⟩ := List.mem_filter.mp hmemf
    exact ⟨hsort, (of_decide_eq_true hvariant).symm⟩

/-- A line holds its quantity. -/
theorem sum_line_reserved {line : CheckoutLine}
    (h : c.create db lines sorted line = .filled (c.create db lines sorted line).items) :
    ((c.create db lines sorted line).items.map fun r => (r.quantityReserved : ℤ)).sum
      = line.quantity := by
  refine sum_filled ?_ h
  exact fun _ _ => rfl

/-! ### After the call -/

/-- Setting the time anew holds what is held and what is updated. -/
theorem sumIf_refresh {q : Reservation → Bool}
    (hq : ∀ r u, q { r with reservedUntil := u } = q r) (t : Reservations) :
    sumIf (fun r => q r && decide (c.now < r.reservedUntil))
        (fun r : Reservation => (r.quantityReserved : ℤ))
        (t.refresh c.updates c.reservedUntil).rows
      = sumIf (fun r => q r && (decide (c.now < r.reservedUntil) || c.updates r))
          (fun r : Reservation => (r.quantityReserved : ℤ)) t.rows := by
  rw [Reservations.refresh, sumIf_map]
  refine sumIf_congr (fun r _ => ?_) fun r _ _ => ?_
  · by_cases hup : c.updates r
    · simp [hup, hq, now_lt_reservedUntil]
    · simp [hup]
  · by_cases hup : c.updates r <;> simp [hup]

/-- What other lines hold of the rows that are kept. -/
theorem sumIf_kept (hreplace : c.replace) (stock : ℕ) :
    sumIf (fun r => decide (r.stock = stock) && (decide (c.now < r.reservedUntil) || c.updates r))
        (fun r : Reservation => (r.quantityReserved : ℤ)) (c.kept db lines).rows
      = c.stillHeld db lines stock := by
  have hrows : (c.kept db lines).rows
      = db.reservations.rows.filter fun r => notOfCheckoutLines (lines.map (·.pk)) r := by
    rw [ReserveCall.kept, if_pos hreplace, Reservations.delete]
    exact List.filter_congr fun r _ => Bool.not_not _
  rw [hrows, sumIf_filter]
  refine sumIf_congr (fun r _ => ?_) fun _ _ _ => rfl
  rw [ReserveCall.staysHeld, Bool.and_right_comm]

/-- What the new rows hold in a stock. -/
theorem sumIf_new (hsorted : c.sorted db = .ok sorted)
    (hall : ∀ line ∈ lines, c.create db lines sorted line
      = .filled (c.create db lines sorted line).items) {s : Stock} (hs : s ∈ db.stocks) :
    sumIf (fun r => decide (r.stock = s.pk) && (decide (c.now < r.reservedUntil) || c.updates r))
        (fun r : Reservation => (r.quantityReserved : ℤ))
        (lines.flatMap fun line => (c.create db lines sorted line).items)
      = c.given db lines s := by
  have hheld : ∀ line ∈ lines,
      sumIf (fun r => decide (r.stock = s.pk)
          && (decide (c.now < r.reservedUntil) || c.updates r))
        (fun r : Reservation => (r.quantityReserved : ℤ)) (c.create db lines sorted line).items
        = if s ∈ sorted ∧ line.variant.pk = s.productVariant then
            Greedy.share (c.available db lines) line.quantity s
              (sorted.filter (·.productVariant = s.productVariant))
          else 0 := by
    intro line hline
    rw [← sumIf_stock_reserved hsorted (hall line hline) hs]
    refine sumIf_congr (fun r hr => ?_) fun _ _ _ => rfl
    have huntil := (create_items (hall line hline) hr).2
    rw [huntil, decide_eq_true (now_lt_reservedUntil c), Bool.true_or, Bool.and_true]
  rw [sumIf_flatMap, List.map_congr_left hheld, ReserveCall.given, hsorted]
  by_cases hin : s ∈ sorted
  · simp only [hin, true_and, if_true]
    rw [sum_map_ite]
    rfl
  · simp only [hin, false_and, if_false]
    exact List.sum_map_zero

/-- **What is held in a stock** after a call that succeeds. -/
theorem reservedIn_reserve (h : reserveStocksAndPreorders c db = .ok db') (hreplace : c.replace)
    (hlines : c.stockLines ≠ []) :
    ∃ lines, c.lines = .ok lines ∧ ∀ s ∈ db.stocks,
      reservedIn db' c.now s.pk = c.stillHeld db lines s.pk + c.given db lines s := by
  obtain ⟨t, p, rfl, ⟨hnil, -⟩ | ⟨-, db₁, hdb₁, rfl⟩⟩ := reserveStocksAndPreorders_eq_ok h
  · exact absurd hnil hlines
  obtain ⟨lines, hl, hcase⟩ := ReserveCall.reserveStocks_eq_ok hdb₁
  refine ⟨lines, hl, fun s hs => (sumIf_refresh (fun _ _ => rfl) db₁.reservations).trans ?_⟩
  rcases hcase with ⟨rfl, rfl⟩ | ⟨sorted, t, hsorted, hall, hrows, rfl⟩
  · -- no line is reserved: nothing is deleted and nothing is added
    have hgiven : c.given db₁ [] s = 0 := by
      rw [ReserveCall.given]
      split
      · split <;> rfl
      · rfl
    rw [hgiven, add_zero, ReserveCall.stillHeld]
    refine sumIf_congr (fun r _ => ?_) fun _ _ _ => rfl
    have hnone : notOfCheckoutLines [] r = true := by
      rw [notOfCheckoutLines]
      cases r.checkoutLine <;> simp
    rw [ReserveCall.staysHeld, List.map_nil, hnone, Bool.and_true]
  · rw [hrows, sumIf_append, sumIf_kept hreplace, sumIf_new hsorted hall hs]

/-! ### What the lines hold -/

/-- A line that is passed twice would have two rows for its first stock. -/
theorem nodup_lines (hlines : c.lines = .ok lines)
    (hall : ∀ line ∈ lines, c.create db lines sorted line
      = .filled (c.create db lines sorted line).items)
    (hunique : ((lines.flatMap fun line => (c.create db lines sorted line).items).filterMap
      Reservation.key?).Nodup) : lines.Nodup := by
  rw [List.filterMap_flatMap] at hunique
  refine (List.nodup_flatMap.mp hunique).2.imp_of_mem fun {l l'} hl _ hdisjoint heq => ?_
  subst heq
  obtain ⟨r, hr⟩ : ∃ r, r ∈ (c.create db lines sorted l).items := by
    refine List.exists_mem_of_ne_nil _ fun hnil => ?_
    have hsum := sum_line_reserved (hall l hl)
    rw [hnil] at hsum
    have hpos := ReserveCall.quantity_pos ((ReserveCall.mem_lines hlines).mp hl)
    exact hpos.ne (Int.natCast_eq_zero.mp hsum.symm).symm
  have hkey : (l.pk, r.stock) ∈ (c.create db lines sorted l).items.filterMap Reservation.key? := by
    refine List.mem_filterMap.mpr ⟨r, hr, ?_⟩
    rw [Reservation.key?, (create_items (hall l hl) hr).1, Option.map_some]
  exact hdisjoint hkey hkey

/-- **A tracked line holds its quantity** after a call that succeeds. -/
theorem heldBy_reserve (h : reserveStocksAndPreorders c db = .ok db') (hreplace : c.replace)
    {line : CheckoutLine} (hline : c.Tracked line) : heldBy db' c.now line.pk = line.quantity := by
  obtain ⟨t, p, rfl, ⟨hnil, -⟩ | ⟨-, db₁, hdb₁, rfl⟩⟩ := reserveStocksAndPreorders_eq_ok h
  · have hmem := hline.1
    rw [hnil] at hmem
    cases hmem
  obtain ⟨lines, hl, hcase⟩ := ReserveCall.reserveStocks_eq_ok hdb₁
  have hmem : line ∈ lines := (ReserveCall.mem_lines hl).mpr hline
  refine (sumIf_refresh (fun _ _ => rfl) db₁.reservations).trans ?_
  rcases hcase with ⟨rfl, -⟩ | ⟨sorted, t, hsorted, hall, hrows, rfl⟩
  · cases hmem
  have hunique := t.unique
  rw [hrows, List.filterMap_append] at hunique
  have hnodup := nodup_lines hl hall (List.nodup_append.mp hunique).2.1
  have hkept : sumIf (fun r => decide (r.checkoutLine = some line.pk)
        && (decide (c.now < r.reservedUntil) || c.updates r))
      (fun r : Reservation => (r.quantityReserved : ℤ)) (c.kept db lines).rows = 0 := by
    refine sumIf_eq_zero fun r hr hp => ?_
    have hrline : r.checkoutLine = some line.pk :=
      of_decide_eq_true (Bool.and_eq_true_iff.mp hp).1
    rw [ReserveCall.kept, if_pos hreplace] at hr
    have hnot := (List.mem_filter.mp hr).2
    rw [Bool.not_not, notOfCheckoutLines, hrline, Option.all_some] at hnot
    exact absurd (List.mem_map_of_mem hmem) (of_decide_eq_true hnot)
  have hnew : ∀ l ∈ lines, sumIf (fun r => decide (r.checkoutLine = some line.pk)
        && (decide (c.now < r.reservedUntil) || c.updates r))
      (fun r : Reservation => (r.quantityReserved : ℤ)) (c.create db lines sorted l).items
        = if l = line then (l.quantity : ℤ) else 0 := by
    intro l hlmem
    by_cases heq : l = line
    · rw [if_pos heq, ← sum_line_reserved (hall l hlmem)]
      refine sumIf_of_forall fun r hr => ?_
      obtain ⟨hrline, huntil⟩ := create_items (hall l hlmem) hr
      rw [hrline, huntil, heq, decide_eq_true (now_lt_reservedUntil c)]
      simp
    · rw [if_neg heq]
      refine sumIf_eq_zero fun r hr hp => absurd ?_ heq
      have hrline : r.checkoutLine = some line.pk :=
        of_decide_eq_true (Bool.and_eq_true_iff.mp hp).1
      rw [(create_items (hall l hlmem) hr).1] at hrline
      exact c.same l (List.mem_of_mem_filter ((ReserveCall.mem_lines hl).mp hlmem).1) line
        (List.mem_of_mem_filter hline.1) (Option.some.inj hrline)
  rw [hrows, sumIf_append, hkept, sumIf_flatMap, List.map_congr_left hnew, sum_map_ite, zero_add]
  exact sumIf_eq_single hnodup hmem fun l _ => decide_eq_true_iff

/-! ### No stock is overbooked -/

variable {stock : ℕ}

/-- Without a reservation that is brought back, what stays held was held. -/
theorem held_of_staysHeld (hback : ¬ c.BroughtBack db lines stock) {r : Reservation}
    (hr : r ∈ db.reservations.rows) (h : c.staysHeld lines stock r) :
    r.stock = stock ∧ notOfCheckoutLines (lines.map (·.pk)) r ∧ c.now < r.reservedUntil := by
  have hnow : c.now < r.reservedUntil := by
    by_contra hexpired
    exact hback ⟨r, hr, h, hexpired⟩
  rw [ReserveCall.staysHeld, Bool.and_eq_true_iff, Bool.and_eq_true_iff, decide_eq_true_iff] at h
  exact ⟨h.1.1, h.1.2, hnow⟩

theorem stillHeld_le (hback : ¬ c.BroughtBack db lines stock) :
    c.stillHeld db lines stock ≤ reservedIn db c.now stock := by
  refine sumIf_le_sumIf (fun r hr h => ?_) fun r _ => Int.natCast_nonneg _
  obtain ⟨hstock, -, hnow⟩ := held_of_staysHeld hback hr h
  rw [decide_eq_true hstock, decide_eq_true hnow]
  rfl

/-- And it is what the map of the call says. -/
theorem reserved_eq_stillHeld (hback : ¬ c.BroughtBack db lines stock)
    (h : stock ∈ (c.stocks db).map (·.pk)) :
    c.reserved db lines stock = c.stillHeld db lines stock := by
  rw [ReserveCall.reserved, sumIf_filter]
  refine sumIf_of_subset (fun r _ hr => ?_) fun r hr hstays hno => ?_
  · simp only [Bool.and_eq_true, decide_eq_true_iff] at hr
    obtain ⟨hstock, ⟨⟨-, -⟩, hnow⟩, hother⟩ := hr
    rw [ReserveCall.staysHeld, decide_eq_true hstock, decide_eq_true hnow, hother]
    rfl
  · obtain ⟨hstock, hother, hnow⟩ := held_of_staysHeld hback hr hstays
    have hzero : r.quantityReserved = 0 := by
      by_contra hne
      refine hno ?_
      simp only [Bool.and_eq_true, decide_eq_true_iff]
      exact ⟨hstock, ⟨⟨hstock ▸ h, Nat.pos_of_ne_zero hne⟩, hnow⟩, hother⟩
    rw [hzero]
    rfl

/-- One line of a variant, and its share of what is neither allocated nor held. -/
theorem given_of_single {s : Stock} (hs : s ∈ db.stocks) (hback : ¬ c.BroughtBack db lines s.pk)
    (hone : ¬ 1 < (ReserveCall.withVariant lines s.productVariant).length)
    (hbefore : NotOverbooked c.now db) :
    allocatedIn db s.pk + c.stillHeld db lines s.pk + c.given db lines s ≤ s.quantity := by
  have hle := hbefore s hs
  have hheld := stillHeld_le hback
  rw [ReserveCall.given]
  split
  · rename_i sorted hsorted
    split
    · rename_i hin
      have hstock := List.mem_map_of_mem (f := Stock.pk) ((mem_reserve_sorted hsorted).mp hin)
      have havailable : c.available db lines s
          = max (s.quantity - allocatedIn db s.pk - c.stillHeld db lines s.pk) 0 := by
        rw [ReserveCall.available, ReserveCall.allocated, quantityAllocationForStocks_eq hstock,
          reserved_eq_stillHeld hback hstock]
      rw [ReserveCall.shares, sumIf, ← ReserveCall.withVariant]
      rcases hlines : ReserveCall.withVariant lines s.productVariant with
        _ | ⟨line, _ | ⟨line', rest⟩⟩
      · rw [List.map_nil, List.sum_nil]
        omega
      · have hshare : Greedy.share (c.available db lines) line.quantity s
            (sorted.filter (·.productVariant = s.productVariant))
              ≤ max (c.available db lines s) 0 := Greedy.share_le _ _ _
        rw [havailable] at hshare
        rw [List.map_singleton, List.sum_singleton]
        omega
      · rw [hlines] at hone
        exact absurd (by simp) hone
    · omega
  · omega

/-- **One call** that fits. -/
theorem notOverbooked_reserve (h : reserveStocksAndPreorders c db = .ok db') (hfits : c.Fits db)
    (hbefore : NotOverbooked c.now db) : NotOverbooked c.now db' := by
  by_cases hlines : c.stockLines = []
  · obtain ⟨t, p, rfl, ⟨-, rfl⟩ | ⟨hne, -⟩⟩ := reserveStocksAndPreorders_eq_ok h
    · exact hbefore
    · exact absurd hlines hne
  obtain ⟨lines, hl, hheld⟩ := reservedIn_reserve h hfits.1 hlines
  obtain ⟨t, p, rfl, -⟩ := reserveStocksAndPreorders_eq_ok h
  intro s hs
  have hallocated : allocatedIn { db with reservations := t, preorderReservations := p } s.pk
      = allocatedIn db s.pk := rfl
  rw [hallocated, hheld s hs, ← add_assoc]
  by_cases hcase : 1 < (ReserveCall.withVariant lines s.productVariant).length
      ∨ c.BroughtBack db lines s.pk
  · exact hfits.2 hlines lines hl s hs hcase
  · rw [not_or] at hcase
    exact given_of_single hs hcase.2 hcase.1 hbefore

end Reserve

/-! ### A shop at work -/

/-- What is allocated and held, and the shares of the lines, fit in each stock. -/
def AllocateStocks.FitsHeld (c : AllocateStocks) (db : Db) : Prop :=
  ∀ sorted, c.sorted db = .ok sorted → ∀ s ∈ sorted,
    allocatedIn db s.pk + reservedIn db c.now s.pk + c.shares db sorted s ≤ s.quantity

/-- **One allocation** that fits. -/
theorem notOverbooked_allocate {c : AllocateStocks} {db db' : Db}
    (h : allocateStocks c db = .ok db') (hfits : c.FitsHeld db)
    (hbefore : NotOverbooked c.now db) : NotOverbooked c.now db' := by
  rcases allocateStocks_eq_ok h with ⟨-, rfl⟩ | ⟨sorted, t, hsorted, hitems, hrows, rfl⟩
  · exact hbefore
  intro s' hs'
  obtain ⟨s, hs, rfl⟩ := List.mem_map.mp hs'
  have hafter : allocatedIn { db with allocations := t } s.pk
      = allocatedIn db s.pk + if s ∈ sorted then c.shares db sorted s else 0 :=
    allocatedIn_allocateStocks hsorted hitems hrows hs
  have hle : allocatedIn { db with allocations := t } s.pk + reservedIn db c.now s.pk
      ≤ s.quantity := by
    rw [hafter]
    by_cases hin : s ∈ sorted
    · have hfit := hfits sorted hsorted s hin
      rw [if_pos hin]
      omega
    · have hfit := hbefore s hs
      rw [if_neg hin]
      omega
  exact hle

/-- The tables, and the time. -/
structure Shop where
  now : Time
  db : Db

/-- The call, at a time. -/
def ReserveCall.at (c : ReserveCall) (now : Time) : ReserveCall := { c with now := now }

def AllocateStocks.at (c : AllocateStocks) (now : Time) : AllocateStocks := { c with now := now }

/-- What happens: a checkout reserves, an order is completed, time passes. -/
inductive ShopRequest where
  | reserve (c : ReserveCall)
  | complete (c : AllocateStocks)
  | wait (seconds : ℕ)

/-- The state after it. A call that raises leaves everything as it was. -/
def serveShop (s : Shop) : ShopRequest → Shop
  | .reserve c =>
    match reserveStocksAndPreorders (c.at s.now) s.db with
    | .ok db => { s with db }
    | .error _ => s
  | .complete c =>
    match allocateStocks (c.at s.now) s.db with
    | .ok db => { s with db }
    | .error _ => s
  | .wait seconds => { s with now := s.now + seconds }

/-- What is asked for fits. -/
def ShopRequest.Fits (s : Shop) : ShopRequest → Prop
  | .reserve c => (c.at s.now).Fits s.db
  | .complete c => (c.at s.now).FitsHeld s.db
  | .wait _ => True

/-- The tracked lines of a call that succeeds hold what they ask for. -/
def ShopRequest.Held (s : Shop) : ShopRequest → Prop
  | .reserve c => ∀ db, reserveStocksAndPreorders (c.at s.now) s.db = .ok db →
      ∀ line, (c.at s.now).Tracked line →
        heldBy db s.now line.pk = line.quantity
  | _ => True

/-- Time only takes away. -/
theorem NotOverbooked.wait {now : Time} {db : Db} (h : NotOverbooked now db) (seconds : ℕ) :
    NotOverbooked (now + seconds) db := by
  intro s hs
  have hle : reservedIn db (now + seconds) s.pk ≤ reservedIn db now s.pk := by
    refine sumIf_le_sumIf (fun r _ hr => ?_) fun r _ => Int.natCast_nonneg _
    rw [Bool.and_eq_true_iff, decide_eq_true_iff, decide_eq_true_iff] at hr ⊢
    exact ⟨hr.1, lt_of_le_of_lt (le_add_of_nonneg_right (Int.natCast_nonneg seconds)) hr.2⟩
  have hbefore := h s hs
  omega

/-- **One request** that fits. -/
theorem notOverbooked_serveShop {s : Shop} {r : ShopRequest} (h : NotOverbooked s.now s.db)
    (hfits : r.Fits s) : NotOverbooked (serveShop s r).now (serveShop s r).db := by
  cases r with
  | reserve c =>
    rw [serveShop]
    split
    · rename_i db hdb
      have hafter : NotOverbooked (c.at s.now).now db := notOverbooked_reserve hdb hfits h
      exact hafter
    · exact h
  | complete c =>
    rw [serveShop]
    split
    · rename_i db hdb
      have hafter : NotOverbooked (c.at s.now).now db := notOverbooked_allocate hdb hfits h
      exact hafter
    · exact h
  | wait seconds => exact h.wait seconds

theorem held_serveShop {s : Shop} {r : ShopRequest} (hfits : r.Fits s) : r.Held s := by
  cases r with
  | reserve c =>
    intro db hdb line hline
    have hheld : heldBy db (c.at s.now).now line.pk = line.quantity :=
      heldBy_reserve hdb hfits.1 hline
    exact hheld
  | complete c => trivial
  | wait seconds => trivial

/-- **Every run** whose steps fit: after each step no stock is overbooked, and the tracked lines of
a reservation hold what they ask for. -/
theorem reservations_notOverbooked {s : Shop} {requests : List ShopRequest}
    (h : EachStep serveShop (fun s r => r.Fits s) s requests) (hs : NotOverbooked s.now s.db) :
    EachStep serveShop
      (fun s r => NotOverbooked (serveShop s r).now (serveShop s r).db ∧ r.Held s) s requests := by
  have hstep : ∀ s r, NotOverbooked s.now s.db → ShopRequest.Fits s r →
      NotOverbooked (serveShop s r).now (serveShop s r).db :=
    fun s r hbefore hfits => notOverbooked_serveShop hbefore hfits
  exact EachStep.inv_mono hstep (fun s r hbefore hfits =>
    ⟨notOverbooked_serveShop hbefore hfits, held_serveShop hfits⟩) h hs

/-- A line for 3 items of the variant of `stockDb`. -/
def checkoutLine (pk : ℕ) : CheckoutLine := { pk, variant := { pk := 2 }, quantity := 3 }

/-- Lines of a checkout are reserved for ten minutes. -/
def reserveCall (lines : List ℕ) : ReserveCall where
  checkoutLines := lines.map checkoutLine
  variants := [{ pk := 2 }]
  countryCode := "CN"
  channel := { pk := 1, slug := "default" }
  lengthInMinutes := 10
  now := 0
  same := by
    intro l hl l' hl' hpk
    obtain ⟨a, -, rfl⟩ := List.mem_map.mp hl
    obtain ⟨b, -, rfl⟩ := List.mem_map.mp hl'
    exact congrArg checkoutLine hpk
  quantities := by
    intro l hl
    obtain ⟨a, -, rfl⟩ := List.mem_map.mp hl
    exact Nat.succ_pos 2
  positive := by decide

theorem notOverbooked_stockDb : NotOverbooked 0 stockDb := by
  intro s hs
  obtain rfl := List.mem_singleton.mp (show s ∈ stockDb.stocks.rows from hs)
  decide

/-- A line is reserved, the reservation expires, and an order is completed. -/
theorem reservations_notOverbooked_oneLine :
    EachStep serveShop
      (fun s r => NotOverbooked (serveShop s r).now (serveShop s r).db ∧ r.Held s)
      ⟨0, stockDb⟩
      [.reserve (reserveCall [7]), .wait 601, .complete (allocateCall [(4, 3)] true)] := by
  refine reservations_notOverbooked ?_ notOverbooked_stockDb
  rw [eachStep_cons, eachStep_cons, eachStep_cons]
  refine ⟨⟨rfl, fun _ lines hlines s _ hcase => ?_⟩, trivial, fun sorted hsorted s hs => ?_,
    eachStep_nil _⟩
  · obtain rfl : [checkoutLine 7] = lines := Except.ok.inj ((rfl : _ = _).symm.trans hlines)
    rcases hcase with hmany | ⟨r, hr, -, -⟩
    · have hle := List.length_filter_le (fun l : CheckoutLine => decide (l.variant.pk = s.productVariant))
        [checkoutLine 7]
      exact absurd hmany (not_lt.mpr hle)
    · cases hr
  · obtain rfl : [(⟨3, 1, 2, 5, 0⟩ : Stock)] = sorted := Except.ok.inj hsorted
    obtain rfl := List.mem_singleton.mp hs
    decide +kernel

/-- Two lines of 3 are reserved against 5 items. -/
theorem reservations_notOverbooked_twoLines :
    ¬ ∀ (s : Shop) (requests : List ShopRequest), NotOverbooked s.now s.db →
      EachStep serveShop (fun s r => NotOverbooked (serveShop s r).now (serveShop s r).db)
        s requests := by
  intro h
  have hend := (h ⟨0, stockDb⟩ [.reserve (reserveCall [7, 8])] notOverbooked_stockDb).1
  have hle := hend _ List.mem_cons_self
  revert hle
  decide +kernel

end Stocks

end Aixinwu
