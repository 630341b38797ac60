import Aixinwu.Order.RefundConservation

/-!
# Orders are paid once

Over any run of `OrderConfirm` requests an order is charged once at most: a charged order is not
unconfirmed any more, and only unconfirmed orders are charged. What it is charged is its net total,
which is also what is captured and what the order says was charged.

The account that is charged is that of whoever sends the request. The bill goes to the owner as long
as the owner is who confirms, and then a user's balance falls by the totals of the user's own orders
that were charged, if nothing is rounded.

## Main definitions

* `Books`, `serve` — the tables and the orders charged so far
* `ConfirmRequest.ByOwner`
* `Settled`

## Main results

* `orderConfirm_failed` — a request that fails changes nothing
* `settled_serve` — one request
* `confirms_settled` — every run
-/

namespace Aixinwu

namespace OrderConfirm

open Account Runs Refunds

/-- A request, by the user who sends it. -/
structure ConfirmRequest where
  now : Time
  user : Option ℕ
  id : ℕ
deriving DecidableEq, Repr

/-- The tables, and the orders that were charged. -/
structure Books where
  db : Db
  charged : List ℕ := []

/-- The state after a request. -/
def serve (unit : ℕ) (s : Books) (r : ConfirmRequest) : Books :=
  let result := orderConfirm unit r.now r.user r.id s.db
  { db := result.1
    charged := if result.2 = .success then s.charged ++ [r.id] else s.charged }

/-- If the request charges for the order, the owner is charged, and nothing is rounded. -/
def ConfirmRequest.ByOwner (unit : ℕ) (db : Db) (r : ConfirmRequest) : Prop :=
  ∀ u ∈ db.users, r.user = some u.pk → ∀ o, getInstance db r.id = .ok o →
    (getLastPayment db.payments o.pk).isSome → o.totalNetAmount ≤ u.balance →
      o.user = some u.pk ∧ (unit : ℤ) ∣ u.balance - o.totalNetAmount

/-- What user `k` owes for the order with key `id`: its total, if it is the user's. -/
def dueOf (db : Db) (k id : ℕ) : Amount :=
  match db.orders.find? id with
  | some o => if o.user = some k then o.totalNetAmount else 0
  | none => 0

/-- The owner and the total of an order. -/
def bill (db : Db) (id : ℕ) : Option (Option ℕ × Amount) :=
  (db.orders.find? id).map fun o => (o.user, o.totalNetAmount)

theorem dueOf_congr {db db' : Db} {id : ℕ} (h : bill db' id = bill db id) (k : ℕ) :
    dueOf db' k id = dueOf db k id := by
  rw [bill, bill] at h
  rw [dueOf, dueOf]
  generalize db'.orders.find? id = found' at h ⊢
  generalize db.orders.find? id = found at h ⊢
  rcases found' with _ | o' <;> rcases found with _ | o
  · rfl
  · exact absurd h nofun
  · exact absurd h nofun
  · simp only [Option.map_some, Option.some.injEq, Prod.mk.injEq] at h
    simp only [h.1, h.2]

/-- The order was charged its total, and is not unconfirmed any more. -/
def Charged (db : Db) (id : ℕ) : Prop :=
  ∃ o p, db.orders.find? id = some o ∧ o.status ≠ .unconfirmed ∧
    o.totalChargedAmount = o.totalNetAmount ∧ getLastPayment db.payments id = some p ∧
      p.capturedAmount = o.totalNetAmount

/-- The books agree with the tables `db₀` they started from. -/
structure Settled (db₀ : Db) (s : Books) : Prop where
  once : s.charged.Nodup
  bill : ∀ id, bill s.db id = bill db₀ id
  balance : ∀ k, balanceIn s.db k = balanceIn db₀ k - (s.charged.map (dueOf db₀ k)).sum
  charged : ∀ id ∈ s.charged, Charged s.db id

/-- **A request that fails** changes nothing. -/
theorem orderConfirm_failed {unit : ℕ} {now : Time} {user : Option ℕ} {id : ℕ} {db : Db}
    (h : (orderConfirm unit now user id db).2 ≠ .success) :
    (orderConfirm unit now user id db).1 = db := by
  rcases orderConfirm_cases unit now user id db with ⟨hsame, -⟩ | ⟨u, o, p, -, -, -, -, -, hpaid⟩
  · exact hsame
  · rw [hpaid] at h
    exact absurd rfl h

variable {unit : ℕ} {db db₀ : Db} {s : Books}

theorem find?_orders_paid (now : Time) (u : User) (o : Order) (p : Payment) (id : ℕ) :
    (paid unit now u o p db).orders.find? id
      = if id = o.pk then (db.orders.find? id).map fun row => { row with
          status := .unfulfilled
          chargeStatus := .ofPayment .fullyCharged
          totalChargedAmount := o.totalNetAmount }
        else db.orders.find? id :=
  Table.find?_modify db.orders o.pk id (fun row => { row with
    status := .unfulfilled
    chargeStatus := .ofPayment .fullyCharged
    totalChargedAmount := o.totalNetAmount }) fun _ => rfl

theorem getLastPayment_paid (now : Time) (u : User) (o : Order) (p : Payment) (id : ℕ) :
    getLastPayment (paid unit now u o p db).payments id
      = (getLastPayment db.payments id).map fun row =>
          if row.pk = p.pk then
            { row with chargeStatus := .fullyCharged, capturedAmount := o.totalNetAmount }
          else row :=
  getLastPayment_modify db.payments p.pk
    (fun row => { row with chargeStatus := .fullyCharged, capturedAmount := o.totalNetAmount })
    (fun _ => rfl) fun _ => ⟨rfl, rfl⟩

theorem bill_paid (now : Time) (u : User) (o : Order) (p : Payment) (id : ℕ) :
    bill (paid unit now u o p db) id = bill db id := by
  rw [bill, find?_orders_paid, bill]
  by_cases hid : id = o.pk
  · rw [if_pos hid, Option.map_map]
    rfl
  · rw [if_neg hid]

/-- The order that is paid is charged. -/
theorem charged_paid_self {o : Order} {p : Payment} (ho : o ∈ db.orders)
    (hp : getLastPayment db.payments o.pk = some p) (now : Time) (u : User) :
    Charged (paid unit now u o p db) o.pk := by
  have hfind : db.orders.find? o.pk = some o := Table.mem_iff_find?.mp ho
  let charged : Order := { o with
    status := .unfulfilled
    chargeStatus := .ofPayment .fullyCharged
    totalChargedAmount := o.totalNetAmount }
  let captured : Payment :=
    { p with chargeStatus := .fullyCharged, capturedAmount := o.totalNetAmount }
  refine ⟨charged, captured, ?_, nofun, rfl, ?_, rfl⟩
  · rw [find?_orders_paid, if_pos rfl, hfind]
    rfl
  · rw [getLastPayment_paid, hp, Option.map_some, if_pos rfl]

/-- Paying for one order leaves another charged. -/
theorem Charged.paid {id : ℕ} (h : Charged db id) {o : Order} {p : Payment} (hne : id ≠ o.pk)
    (hp : getLastPayment db.payments o.pk = some p) (now : Time) (u : User) :
    Charged (OrderConfirm.paid unit now u o p db) id := by
  obtain ⟨o', p', hfind, hstatus, htotal, hp', hcaptured⟩ := h
  refine ⟨o', p', ?_, hstatus, htotal, ?_, hcaptured⟩
  · rw [find?_orders_paid, if_neg hne, hfind]
  · have hother : p'.pk ≠ p.pk := by
      intro hpk
      obtain ⟨hmem, horder⟩ := getLastPayment_mem hp
      obtain ⟨hmem', horder'⟩ := getLastPayment_mem hp'
      rw [Table.eq_of_pk_eq hmem' hmem hpk, horder] at horder'
      exact hne (Option.some.inj horder').symm
    rw [getLastPayment_paid, hp', Option.map_some, if_neg hother]

/-- **One request** by the owner. -/
theorem settled_serve (hunit : 0 < unit) {r : ConfirmRequest} (h : Settled db₀ s)
    (hr : r.ByOwner unit s.db) : Settled db₀ (serve unit s r) := by
  rcases orderConfirm_cases unit r.now r.user r.id s.db with
    ⟨hsame, hfail⟩ | ⟨u, o, p, huser, hu, ho, hp, hbalance, hpaid⟩
  · have hserve : serve unit s r = s := by
      rw [serve, hsame, if_neg hfail]
    rwa [hserve]
  obtain ⟨hfind, hstatus, -⟩ := getInstance_eq_ok ho
  obtain ⟨hmem, hid⟩ := Table.find?_eq_some.mp hfind
  obtain ⟨howner, hdvd⟩ := hr u hu huser o ho (Option.isSome_iff_exists.mpr ⟨p, hp⟩) hbalance
  have hserve : serve unit s r
      = { db := paid unit r.now u o p s.db, charged := s.charged ++ [r.id] } := by
    rw [serve, hpaid, if_pos rfl]
  have hnew : o.pk ∉ s.charged := by
    intro hold
    obtain ⟨o', -, hfind', hstatus', -⟩ := h.charged o.pk hold
    rw [← hid, pk_order, hfind'] at hfind
    exact hstatus' (Option.some.inj hfind ▸ hstatus)
  rw [hserve, ← hid, pk_order]
  refine ⟨h.once.append (List.nodup_singleton _) (List.disjoint_singleton.mpr hnew), fun id => ?_,
    fun k => ?_, fun id hcharged => ?_⟩
  · exact (bill_paid r.now u o p id).trans (h.bill id)
  · have hdue : dueOf db₀ k o.pk = if k = u.pk then o.totalNetAmount else 0 := by
      have hfound : s.db.orders.find? o.pk = some o := Table.mem_iff_find?.mp hmem
      rw [← dueOf_congr (h.bill o.pk), dueOf, hfound]
      show (if o.user = some k then o.totalNetAmount else 0) = _
      rw [howner]
      exact if_congr ⟨fun hk => (Option.some.inj hk).symm, fun hk => congrArg some hk.symm⟩ rfl rfl
    dsimp only
    rw [balanceIn_paid (fresh_of_mem hu) hunit hdvd, h.balance, List.map_append, List.sum_append,
      List.map_singleton, List.sum_singleton, hdue]
    by_cases hk : k = u.pk
    · rw [if_pos hk, if_pos hk]
      abel
    · rw [if_neg hk, if_neg hk, add_zero, add_zero]
  · rcases List.mem_append.mp hcharged with hold | hself
    · refine (h.charged id hold).paid (fun heq => hnew (heq ▸ hold)) hp r.now u
    · rw [List.mem_singleton.mp hself]
      exact charged_paid_self hmem hp r.now u

/-- **Every run** of requests by owners: an order is charged once at most, every balance falls by
the totals of the user's own orders that were charged, and a charged order is charged and captured
its total. A request that fails changes nothing. -/
theorem confirms_settled (hunit : 0 < unit) {requests : List ConfirmRequest}
    (h : EachStep (serve unit) (fun s r => r.ByOwner unit s.db) { db := db } requests) :
    (∀ s, Reached (serve unit) { db := db } requests s →
      s.charged.Nodup ∧
      (∀ k, balanceIn s.db k = balanceIn db k - (s.charged.map (dueOf db k)).sum) ∧
      ∀ id ∈ s.charged, Charged s.db id) ∧
    ∀ s (r : ConfirmRequest), (orderConfirm unit r.now r.user r.id s).2 ≠ .success →
      (orderConfirm unit r.now r.user r.id s).1 = s := by
  have hstart : Settled db { db := db } :=
    ⟨List.nodup_nil, fun _ => rfl, fun _ => (sub_zero _).symm, fun id hid => nomatch hid⟩
  refine ⟨fun s hreached => ?_, fun s r hfail => orderConfirm_failed hfail⟩
  have hstep : ∀ s r, Settled db s → ConfirmRequest.ByOwner unit s.db r →
      Settled db (serve unit s r) := fun s r hs hr => settled_serve hunit hs hr
  have hsettled : Settled db s := h.inv_reached hstep hstart hreached
  exact ⟨hsettled.once, hsettled.balance, hsettled.charged⟩

/-- The owner confirms, and tries again. -/
theorem confirms_settled_twice :
    let requests : List ConfirmRequest := [⟨5, some 1, 3⟩, ⟨6, some 1, 3⟩]
    (∀ s, Reached (serve 10) { db := orderDb } requests s →
      s.charged.Nodup ∧
      (∀ k, balanceIn s.db k = balanceIn orderDb k - (s.charged.map (dueOf orderDb k)).sum) ∧
      ∀ id ∈ s.charged, Charged s.db id) ∧
    ∀ s (r : ConfirmRequest), (orderConfirm 10 r.now r.user r.id s).2 ≠ .success →
      (orderConfirm 10 r.now r.user r.id s).1 = s := by
  intro requests
  have hrun : EachStep (serve 10) (fun s r => r.ByOwner 10 s.db) { db := orderDb } requests := by
    rw [eachStep_cons, eachStep_cons]
    refine ⟨?_, ?_, eachStep_nil _⟩
    · intro u hu hpk o ho _ _
      obtain ⟨hfind, -, -⟩ := getInstance_eq_ok ho
      obtain rfl := Option.some.inj (hfind.symm.trans rfl)
      rcases List.mem_cons.mp (show u ∈ orderDb.users.rows from hu) with rfl | hu
      · decide
      · obtain rfl := List.mem_singleton.mp hu
        cases hpk
    · intro u _ _ o ho
      obtain ⟨hfind, hstatus, -⟩ := getInstance_eq_ok ho
      obtain rfl := Option.some.inj (hfind.symm.trans rfl)
      cases hstatus
  exact confirms_settled (by decide) hrun

/-- User 2 confirms the order of user 1, and pays for it. -/
theorem confirms_settled_stranger :
    ¬ ∀ (unit : ℕ) (db : Db) (requests : List ConfirmRequest), 0 < unit →
      ∀ s, Reached (serve unit) { db := db } requests s →
        ∀ k, balanceIn s.db k = balanceIn db k - (s.charged.map (dueOf db k)).sum := by
  intro h
  let stranger : User := { pk := 2, email := "b@sjtu.edu.cn", balance := 100000, lastLogin := 0 }
  let db : Db := { orderDb with
    users := ⟨[{ pk := 1, email := "a@sjtu.edu.cn", balance := 100000, lastLogin := 0 }, stranger],
      by decide⟩ }
  have hend := h 10 db [⟨5, some 2, 3⟩] (by decide) _ (reached_run _ _) 2
  revert hend
  decide +kernel

end OrderConfirm

end Aixinwu
