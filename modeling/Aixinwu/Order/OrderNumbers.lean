import Aixinwu.Donation.BulkComplete
import Aixinwu.Lib.Numbering
import Aixinwu.Lib.Serial
import Aixinwu.Order.OrderListing

/-!
# The numbers of orders and of balance events

Orders and balance events are numbered within a month. The number is a default of the column: it is
the count of the month's rows plus one, taken when the *instance* is built. So two things spoil it:
instances built before the first of them is saved (`OrderBulkCreate`, `DonationBulkComplete`), which
get the same number, and deleting a draft order, which lowers the count.

A deletion does no harm at once. It leaves a gap, and the orders created afterwards arrive at a
number that is in use; the only deletions after which this never happens are those of the newest
orders. **`numbers_unique_iff`** says so: the numbers stay unique, whatever is created later,
exactly in the runs that import orders one by one and delete drafts from the end.

Everything happens in one month, on top of orders and events of earlier months.

## Main definitions

* `Order`, `OrderRequest`, `orderStep` — creating, importing and deleting
* `NumbersUnique`, `FromTheEnd`
* `EventDb`, `eventStep` — balance events with their numbers
* `AtMostOneCredit`

## Main results

* `orderNumbersUnique_iff`, `eventNumbersUnique_iff`
* `numbers_unique_iff`
-/

namespace Aixinwu

namespace OrderNumbers

open Numbering Runs

/-! ### Orders -/

/-- An order, and whether it is a draft. -/
structure Order extends OrderListing.Order where
  draft : Bool
deriving DecidableEq, Repr

instance : HasPk Order ℕ := ⟨fun o => o.id⟩

@[simp] theorem pk_order (o : Order) : pk o = o.id := rfl

/-- `get_order_number`. -/
def getOrderNumber (month : ℕ) (orders : Serial Order) : ℕ :=
  OrderListing.getOrderNumber month (orders.rows.map (·.toOrder))

/-- An instance that waits for its id; the default of `number` has been taken. -/
def newOrder (month number : ℕ) (draft : Bool) (id : ℕ) : Order := ⟨⟨id, month, number⟩, draft⟩

theorem pk_newOrder (month number : ℕ) (draft : Bool) (id : ℕ) :
    pk (newOrder month number draft id) = id := rfl

/-- What happens to orders in the month: one is created (by a checkout, as a draft, as a
replacement), several are imported, drafts are deleted. -/
inductive OrderRequest where
  | create (draft : Bool)
  | bulkCreate (drafts : List Bool)
  | deleteDrafts (ids : List ℕ)
deriving DecidableEq, Repr

/-- `Order.objects.create()`. -/
def createOrder (month : ℕ) (orders : Serial Order) (draft : Bool) : Serial Order :=
  orders.create (newOrder month (getOrderNumber month orders) draft) (pk_newOrder _ _ _)

/-- `OrderBulkCreate`, of the orders that are created: `create_single_order` builds every instance,
then `save_data` saves them. -/
def bulkCreateOrders (month : ℕ) (orders : Serial Order) (drafts : List Bool) : Serial Order :=
  let instances := drafts.map fun draft => (getOrderNumber month orders, draft)
  instances.foldl (fun t instance_ => t.create (newOrder month instance_.1 instance_.2) (pk_newOrder _ _ _))
    orders

/-- The order is a draft named by the request. -/
def isDeleted (ids : List ℕ) (o : Order) : Bool := o.draft && ids.contains o.id

/-- The orders after a request. -/
def orderStep (month : ℕ) (orders : Serial Order) : OrderRequest → Serial Order
  | .create draft => createOrder month orders draft
  | .bulkCreate drafts => bulkCreateOrders month orders drafts
  | .deleteDrafts ids => orders.delete (isDeleted ids)

/-- No two orders of the month have the same number. -/
def NumbersUnique (month : ℕ) (orders : Serial Order) : Prop :=
  ∀ o ∈ orders, ∀ p ∈ orders, month ≤ o.createdAt → month ≤ p.createdAt → o.number = p.number → o = p

/-- The request imports one order at most, or deletes only orders that are numbered above all
others of the month. -/
def FromTheEnd (month : ℕ) (orders : Serial Order) : OrderRequest → Prop
  | .create _ => True
  | .bulkCreate drafts => drafts.length ≤ 1
  | .deleteDrafts ids =>
    ∀ o ∈ orders, ∀ p ∈ orders, month ≤ o.createdAt → month ≤ p.createdAt →
      isDeleted ids o → ¬ isDeleted ids p → p.number < o.number

/-- The numbers of the month. -/
def numbersOf (month : ℕ) (orders : Serial Order) : List ℕ :=
  (orders.rows.filter (month ≤ ·.createdAt)).map (·.number)

theorem mem_numbersOf {month : ℕ} {orders : Serial Order} {n : ℕ} :
    n ∈ numbersOf month orders ↔ ∃ o ∈ orders, month ≤ o.createdAt ∧ o.number = n := by
  simp [numbersOf, Serial.mem_def, and_assoc]

theorem numbersUnique_iff {month : ℕ} {orders : Serial Order} :
    NumbersUnique month orders ↔ (numbersOf month orders).Nodup := by
  have hrows : (orders.rows.filter (month ≤ ·.createdAt)).Nodup := orders.nodup.of_map.filter _
  have hmem : ∀ o, o ∈ orders.rows.filter (month ≤ ·.createdAt) ↔ o ∈ orders ∧ month ≤ o.createdAt := by
    intro o
    rw [List.mem_filter, decide_eq_true_eq, Serial.mem_def]
  rw [numbersOf, List.nodup_map_iff_inj_on hrows]
  constructor
  · intro h o ho p hp hnumber
    obtain ⟨ho, homonth⟩ := (hmem o).mp ho
    obtain ⟨hp, hpmonth⟩ := (hmem p).mp hp
    exact h o ho p hp homonth hpmonth hnumber
  · intro h o ho p hp homonth hpmonth hnumber
    exact h o ((hmem o).mpr ⟨ho, homonth⟩) p ((hmem p).mpr ⟨hp, hpmonth⟩) hnumber

theorem getOrderNumber_eq (month : ℕ) (orders : Serial Order) :
    getOrderNumber month orders = (numbersOf month orders).length + 1 := by
  rw [getOrderNumber, OrderListing.getOrderNumber, numbersOf, List.filter_map, List.length_map,
    List.length_map]
  rfl

theorem numbersOf_createWith (month number : ℕ) (orders : Serial Order) (draft : Bool) :
    numbersOf month (orders.create (newOrder month number draft) (pk_newOrder _ _ _))
      = numbersOf month orders ++ [number] := by
  rw [numbersOf, Serial.rows_create, List.filter_append, List.map_append]
  simp [numbersOf, newOrder]

theorem numbersOf_createOrder (month : ℕ) (orders : Serial Order) (draft : Bool) :
    numbersOf month (createOrder month orders draft) = issue 1 (numbersOf month orders) := by
  rw [createOrder, numbersOf_createWith, getOrderNumber_eq]
  rfl

theorem numbersOf_bulkCreateOrders (month : ℕ) (orders : Serial Order) (drafts : List Bool) :
    numbersOf month (bulkCreateOrders month orders drafts)
      = issue drafts.length (numbersOf month orders) := by
  have hfold : ∀ (n : ℕ) (drafts : List Bool) (t : Serial Order),
      numbersOf month ((drafts.map fun draft => (n, draft)).foldl
        (fun t i => t.create (newOrder month i.1 i.2) (pk_newOrder _ _ _)) t)
        = numbersOf month t ++ List.replicate drafts.length n := by
    intro n drafts
    induction drafts with
    | nil => simp
    | cons draft drafts ih =>
      intro t
      rw [List.map_cons, List.foldl_cons, ih, numbersOf_createWith, List.length_cons,
        List.replicate_succ, List.append_assoc, List.singleton_append]
  rw [bulkCreateOrders, issue, ← getOrderNumber_eq]
  exact hfold _ drafts orders

/-- Deleting from the end keeps the numbers consecutive, and nothing else does. -/
theorem consecutive_delete_iff {month : ℕ} {orders : Serial Order}
    (h : Consecutive (numbersOf month orders)) (ids : List ℕ) :
    Consecutive (numbersOf month (orders.delete (isDeleted ids)))
      ↔ FromTheEnd month orders (.deleteDrafts ids) := by
  have hunique := numbersUnique_iff.mpr h.nodup
  have hmem : ∀ o, o ∈ orders.delete (isDeleted ids) ↔ o ∈ orders ∧ ¬ isDeleted ids o := by
    intro o
    rw [Serial.mem_def, Serial.rows_delete, List.mem_filter, Serial.mem_def]
    simp
  -- the number of a deleted order is gone
  have hgone : ∀ o ∈ orders, month ≤ o.createdAt → isDeleted ids o →
      o.number ∉ numbersOf month (orders.delete (isDeleted ids)) := by
    intro o ho homonth hdel hin
    obtain ⟨q, hq, hqmonth, hqnumber⟩ := mem_numbersOf.mp hin
    obtain ⟨hq, hkept⟩ := (hmem q).mp hq
    exact hkept (hunique q hq o ho hqmonth homonth hqnumber ▸ hdel)
  constructor
  · intro hafter o ho p hp homonth hpmonth hdel hkept
    have hpin : p.number ∈ numbersOf month (orders.delete (isDeleted ids)) :=
      mem_numbersOf.mpr ⟨p, (hmem p).mpr ⟨hp, hkept⟩, hpmonth, rfl⟩
    by_contra hle
    refine hgone o ho homonth hdel (hafter.mem_iff.mpr ⟨?_, ?_⟩)
    · exact h.pos _ (mem_numbersOf.mpr ⟨o, ho, homonth, rfl⟩)
    · exact (not_lt.mp hle).trans (hafter.le_length _ hpin)
  · intro hend
    refine h.of_sublist ((List.filter_sublist.filter _).map _) fun m hm hmgone n hn => ?_
    obtain ⟨o, ho, homonth, rfl⟩ := mem_numbersOf.mp hm
    obtain ⟨p, hp, hpmonth, rfl⟩ := mem_numbersOf.mp hn
    obtain ⟨hp, hkept⟩ := (hmem p).mp hp
    refine hend o ho p hp homonth hpmonth ?_ hkept
    by_contra hokept
    exact hmgone (mem_numbersOf.mpr ⟨o, (hmem o).mpr ⟨ho, hokept⟩, homonth, rfl⟩)

/-- **One request.** The numbers stay consecutive exactly if it works from the end. -/
theorem consecutive_orderStep_iff {month : ℕ} {orders : Serial Order}
    (h : Consecutive (numbersOf month orders)) (request : OrderRequest) :
    Consecutive (numbersOf month (orderStep month orders request))
      ↔ FromTheEnd month orders request := by
  cases request with
  | create draft =>
    rw [orderStep, numbersOf_createOrder]
    exact iff_of_true h.issue_one trivial
  | bulkCreate drafts =>
    rw [orderStep, numbersOf_bulkCreateOrders, FromTheEnd]
    constructor
    · intro hafter
      by_contra hmany
      exact not_nodup_issue (by omega) hafter.nodup
    · exact h.issue_le_one
  | deleteDrafts ids => exact consecutive_delete_iff h ids

theorem consecutive_orderStep {month : ℕ} (orders : Serial Order) (request : OrderRequest)
    (h : Consecutive (numbersOf month orders)) (hend : FromTheEnd month orders request) :
    Consecutive (numbersOf month (orderStep month orders request)) :=
  (consecutive_orderStep_iff h request).mpr hend

theorem pos_orderStep {month : ℕ} {orders : Serial Order}
    (h : ∀ n ∈ numbersOf month orders, 1 ≤ n) (request : OrderRequest) :
    ∀ n ∈ numbersOf month (orderStep month orders request), 1 ≤ n := by
  have hissue : ∀ k, ∀ n ∈ issue k (numbersOf month orders), 1 ≤ n := by
    intro k n hn
    rcases List.mem_append.mp hn with hn | hn
    · exact h n hn
    · have := List.eq_of_mem_replicate hn
      omega
  cases request with
  | create draft =>
    rw [orderStep, numbersOf_createOrder]
    exact hissue 1
  | bulkCreate drafts =>
    rw [orderStep, numbersOf_bulkCreateOrders]
    exact hissue drafts.length
  | deleteDrafts ids =>
    intro n hn
    exact h n (((List.filter_sublist.filter _).map _).subset hn)

theorem numbersOf_run_create (month : ℕ) (orders : Serial Order) (drafts : List Bool) :
    numbersOf month (run (orderStep month) orders (drafts.map .create))
      = (issue 1)^[drafts.length] (numbersOf month orders) := by
  induction drafts generalizing orders with
  | nil => rfl
  | cons draft drafts ih =>
    rw [List.map_cons, run_cons, ih, orderStep, numbersOf_createOrder, List.length_cons,
      Function.iterate_succ_apply]

/-- Consecutive numbers, said of the orders: they stay unique however many orders are created. -/
theorem consecutive_iff_forall_run {month : ℕ} {orders : Serial Order}
    (hpos : ∀ n ∈ numbersOf month orders, 1 ≤ n) :
    Consecutive (numbersOf month orders) ↔
      ∀ drafts : List Bool,
        NumbersUnique month (run (orderStep month) orders (drafts.map .create)) := by
  rw [consecutive_iff_forall_iterate hpos]
  constructor
  · intro h drafts
    rw [numbersUnique_iff, numbersOf_run_create]
    exact h drafts.length
  · intro h k
    have hk := h (List.replicate k false)
    rwa [numbersUnique_iff, numbersOf_run_create, List.length_replicate] at hk

/-- **Order numbers.** They stay unique, in every state of the run and however many orders are
created from there, exactly when every request works from the end. -/
theorem orderNumbersUnique_iff {month : ℕ} {orders : Serial Order}
    (h : Consecutive (numbersOf month orders)) (requests : List OrderRequest) :
    (∀ t, Reached (orderStep month) orders requests t → ∀ drafts : List Bool,
        NumbersUnique month (run (orderStep month) t (drafts.map .create))) ↔
      EachStep (orderStep month) (FromTheEnd month) orders requests := by
  refine eachStep_iff_reached consecutive_orderStep ?_ ?_ h
  · intro s hs
    exact (consecutive_iff_forall_run hs.pos).mp hs
  · intro s request hs hunique
    exact (consecutive_orderStep_iff hs request).mp
      ((consecutive_iff_forall_run (pos_orderStep hs.pos request)).mpr hunique)

/-! ### Balance events -/

/-- A balance event with its number. -/
structure NumberedEvent extends Account.BalanceEvent where
  number : ℕ
deriving DecidableEq, Repr

/-- An event with the number that the default has given. -/
def numbered (number : ℕ) (event : Account.BalanceEvent) : NumberedEvent := ⟨event, number⟩

/-- The tables, and the balance events with their numbers. -/
structure EventDb where
  db : Db
  events : List NumberedEvent
  agree : events.map (·.toBalanceEvent) = db.balanceEvents

/-- `get_balance_event_number`. -/
def getBalanceEventNumber (monthStart : Time) (s : EventDb) : ℕ :=
  (s.events.filter (monthStart ≤ ·.date)).length + 1

/-- An instant of the month, for a month that is not over. -/
abbrev InMonth (monthStart : Time) := {now : Time // monthStart ≤ now}

/-- What happens to balance events in the month: one of the functions of `account/events.py` creates
one, or donations are completed together. -/
inductive EventRequest (monthStart : Time) where
  | create (now : InMonth monthStart) (event : Account.BalanceEvent)
  | donationBulkComplete (now : InMonth monthStart) (ids : List ℕ) (accepted : Bool)

theorem agree_append (s : EventDb) (number : ℕ) (es : List Account.BalanceEvent) :
    (s.events ++ es.map (numbered number)).map (·.toBalanceEvent) = s.db.balanceEvents ++ es := by
  rw [List.map_append, s.agree, List.map_map]
  exact congrArg _ (List.map_id es)

/-- `BalanceEvent.objects.create(…)`; `date` has a default. -/
def createEvent (monthStart : Time) (s : EventDb) (now : Time) (event : Account.BalanceEvent) :
    EventDb :=
  let event := { event with date := now }
  ⟨{ s.db with balanceEvents := s.db.balanceEvents ++ [event] },
    s.events ++ [event].map (numbered (getBalanceEventNumber monthStart s)), agree_append s _ _⟩

/-- The donations with these ids. -/
def querysetOf (s : EventDb) (ids : List ℕ) : s.db.donations.Queryset :=
  s.db.donations.filter fun d => ids.contains d.pk

/-- `DonationBulkComplete.bulk_action`, with the numbers: every instance has been built, and its
number taken, when `bulk_create` saves them. -/
def donationBulkComplete (monthStart : Time) (s : EventDb) (now : Time) (ids : List ℕ)
    (accepted : Bool) : EventDb :=
  ⟨(Donation.bulkAction s.db now (querysetOf s ids) accepted).1,
    s.events ++ (((querysetOf s ids).rows.filterMap
      (Donation.bulkUpdateOf s.db.users now accepted)).map (·.2)).map
        (numbered (getBalanceEventNumber monthStart s)), agree_append s _ _⟩

/-- The state after a request. -/
def eventStep (monthStart : Time) (s : EventDb) : EventRequest monthStart → EventDb
  | .create now event => createEvent monthStart s now event
  | .donationBulkComplete now ids accepted => donationBulkComplete monthStart s now ids accepted

/-- The numbers of the month. -/
def eventNumbersOf (monthStart : Time) (s : EventDb) : List ℕ :=
  (s.events.filter (monthStart ≤ ·.date)).map (·.number)

/-- No two balance events of the month have the same number. -/
def EventNumbersUnique (monthStart : Time) (s : EventDb) : Prop := (eventNumbersOf monthStart s).Nodup

/-- Of the donations that are completed together one at most takes effect and has a donor. -/
def AtMostOneCredit {monthStart : Time} (s : EventDb) : EventRequest monthStart → Prop
  | .create _ _ => True
  | .donationBulkComplete _ ids accepted =>
    ((querysetOf s ids).rows.filter fun d =>
      Donation.TakesEffect accepted d ∧ (Donation.donorOf s.db.users d).isSome).length ≤ 1

variable {monthStart : Time}

theorem eventNumbersOf_append {s t : EventDb} (es : List Account.BalanceEvent)
    (hdate : ∀ e ∈ es, monthStart ≤ e.date)
    (ht : t.events = s.events ++ es.map (numbered (getBalanceEventNumber monthStart s))) :
    eventNumbersOf monthStart t = issue es.length (eventNumbersOf monthStart s) := by
  have hall : (es.map (numbered (getBalanceEventNumber monthStart s))).filter
      (monthStart ≤ ·.date) = es.map (numbered (getBalanceEventNumber monthStart s)) := by
    refine List.filter_eq_self.mpr fun n hn => ?_
    obtain ⟨e, he, rfl⟩ := List.mem_map.mp hn
    exact decide_eq_true (hdate e he)
  have hnumbers : (es.map (numbered (getBalanceEventNumber monthStart s))).map (·.number)
      = List.replicate es.length (getBalanceEventNumber monthStart s) := by
    rw [List.map_map]
    exact List.map_const
  rw [eventNumbersOf, ht, List.filter_append, hall, List.map_append, hnumbers, issue,
    getBalanceEventNumber, eventNumbersOf, List.length_map]

/-- The batch makes an event for every donation that takes effect and has a donor. -/
theorem length_bulkUpdates (users : Table Account.User) (now : Time) (accepted : Bool)
    (ds : List Donation) :
    (ds.filterMap (Donation.bulkUpdateOf users now accepted)).length
      = (ds.filter fun d =>
          Donation.TakesEffect accepted d ∧ (Donation.donorOf users d).isSome).length := by
  induction ds with
  | nil => rfl
  | cons d ds ih =>
    obtain ⟨event, -, heq⟩ := Donation.bulkUpdateOf_eq users now accepted d
    rw [List.filterMap_cons, heq, List.filter_cons]
    by_cases h : Donation.TakesEffect accepted d
    · cases Donation.donorOf users d <;> simp [h, ih]
    · simp [h, ih]

theorem date_of_bulkUpdateOf {users : Table Account.User} {now : Time} {accepted : Bool}
    {d : Donation} {r : Account.User × Account.BalanceEvent}
    (h : Donation.bulkUpdateOf users now accepted d = some r) : r.2.date = now := by
  rw [Donation.bulkUpdateOf] at h
  split at h
  · split at h <;> cases h
    rfl
  · split at h
    · split at h <;> cases h
      rfl
    · cases h

/-- How many events a request makes. -/
def eventCount (s : EventDb) : EventRequest monthStart → ℕ
  | .create _ _ => 1
  | .donationBulkComplete _ ids accepted =>
    ((querysetOf s ids).rows.filter fun d =>
      Donation.TakesEffect accepted d ∧ (Donation.donorOf s.db.users d).isSome).length

theorem eventNumbersOf_step (s : EventDb) (request : EventRequest monthStart) :
    eventNumbersOf monthStart (eventStep monthStart s request)
      = issue (eventCount s request) (eventNumbersOf monthStart s) := by
  cases request with
  | create now event =>
    refine eventNumbersOf_append [{ event with date := now }] ?_ rfl
    rintro e he
    rw [List.mem_singleton.mp he]
    exact now.2
  | donationBulkComplete now ids accepted =>
    rw [eventCount, ← length_bulkUpdates s.db.users now accepted (querysetOf s ids).rows]
    rw [← List.length_map (f := Prod.snd)]
    refine eventNumbersOf_append _ ?_ rfl
    intro e he
    obtain ⟨r, hr, rfl⟩ := List.mem_map.mp he
    obtain ⟨d, -, hd⟩ := List.mem_filterMap.mp hr
    rw [date_of_bulkUpdateOf hd]
    exact now.2

theorem eventNumbersUnique_step_iff {s : EventDb} (h : Consecutive (eventNumbersOf monthStart s))
    (request : EventRequest monthStart) :
    EventNumbersUnique monthStart (eventStep monthStart s request) ↔ AtMostOneCredit s request := by
  have hcount : AtMostOneCredit s request ↔ eventCount s request ≤ 1 := by
    cases request with
    | create now event => exact iff_of_true trivial le_rfl
    | donationBulkComplete now ids accepted => exact Iff.rfl
  rw [hcount, EventNumbersUnique, eventNumbersOf_step]
  constructor
  · intro hunique
    by_contra hmany
    exact not_nodup_issue (by omega) hunique
  · intro hfew
    exact (h.issue_le_one hfew).nodup

theorem consecutive_eventStep (s : EventDb) (request : EventRequest monthStart)
    (h : Consecutive (eventNumbersOf monthStart s)) (hfew : AtMostOneCredit s request) :
    Consecutive (eventNumbersOf monthStart (eventStep monthStart s request)) := by
  rw [eventNumbersOf_step]
  refine h.issue_le_one ?_
  cases request with
  | create now event => exact le_rfl
  | donationBulkComplete now ids accepted => exact hfew

/-- **Balance event numbers** are unique throughout a run exactly when no batch of donations makes
two events. -/
theorem eventNumbersUnique_iff {s : EventDb} (h : Consecutive (eventNumbersOf monthStart s))
    (requests : List (EventRequest monthStart)) :
    (∀ t, Reached (eventStep monthStart) s requests t → EventNumbersUnique monthStart t) ↔
      EachStep (eventStep monthStart) AtMostOneCredit s requests := by
  refine eachStep_iff_reached consecutive_eventStep (fun s hs => hs.nodup) ?_ h
  intro s request hs hunique
  exact (eventNumbersUnique_step_iff hs request).mp hunique

/-! ### Orders and balance events -/

/-- **The numbers of a month.** On top of the orders and events of earlier months, order numbers
stay unique, whatever is created later, exactly in the runs that work from the end, and balance
event numbers are unique exactly in the runs without a batch of two credits. -/
theorem numbers_unique_iff {month : ℕ} {older : Serial Order} {olderEvents : EventDb}
    (horders : ∀ o ∈ older, o.createdAt < month)
    (hevents : ∀ e ∈ olderEvents.events, e.date < monthStart)
    (requests : List OrderRequest) (eventRequests : List (EventRequest monthStart)) :
    ((∀ t, Reached (orderStep month) older requests t → ∀ drafts : List Bool,
        NumbersUnique month (run (orderStep month) t (drafts.map .create))) ↔
      EachStep (orderStep month) (FromTheEnd month) older requests) ∧
    ((∀ t, Reached (eventStep monthStart) olderEvents eventRequests t →
        EventNumbersUnique monthStart t) ↔
      EachStep (eventStep monthStart) AtMostOneCredit olderEvents eventRequests) := by
  constructor
  · refine orderNumbersUnique_iff ?_ requests
    have hnone : older.rows.filter (month ≤ ·.createdAt) = [] :=
      List.filter_eq_nil_iff.mpr fun o ho => by simpa using horders o ho
    rw [numbersOf, hnone]
    exact consecutive_nil
  · refine eventNumbersUnique_iff ?_ eventRequests
    have hnone : olderEvents.events.filter (monthStart ≤ ·.date) = [] :=
      List.filter_eq_nil_iff.mpr fun e he => by simpa using hevents e he
    rw [eventNumbersOf, hnone]
    exact consecutive_nil

/-- In the first month of a shop: two orders and the deletion of the newer, one donation. -/
theorem numbers_unique_first_month :
    ((∀ t, Reached (orderStep 0) Serial.empty [.create false, .create true, .deleteDrafts [2]] t →
        ∀ drafts : List Bool, NumbersUnique 0 (run (orderStep 0) t (drafts.map .create))) ↔
      EachStep (orderStep 0) (FromTheEnd 0) Serial.empty
        [.create false, .create true, .deleteDrafts [2]]) ∧
    ((∀ t, Reached (eventStep 0) ⟨{ users := Table.empty }, [], rfl⟩
        [.donationBulkComplete ⟨5, by decide⟩ [] true] t → EventNumbersUnique 0 t) ↔
      EachStep (eventStep 0) AtMostOneCredit ⟨{ users := Table.empty }, [], rfl⟩
        [.donationBulkComplete ⟨5, by decide⟩ [] true]) :=
  numbers_unique_iff (fun o ho => absurd ho (Serial.not_mem_empty o))
    (fun _ he => absurd he List.not_mem_nil) _ _

/-- A draft is deleted that is not the newest order, and the next order gets the number of the
newest; two orders are imported together. -/
theorem order_numbers_repeat :
    (∃ t, Reached (orderStep 0) Serial.empty
        [.create true, .create false, .deleteDrafts [1], .create false] t ∧ ¬ NumbersUnique 0 t) ∧
      ∃ t, Reached (orderStep 0) Serial.empty [.bulkCreate [false, false]] t ∧
        ¬ NumbersUnique 0 t := by
  refine ⟨⟨_, reached_run _ _, ?_⟩, ⟨_, reached_run _ _, ?_⟩⟩
  · rw [numbersUnique_iff]
    decide
  · rw [numbersUnique_iff]
    decide

end OrderNumbers

end Aixinwu
