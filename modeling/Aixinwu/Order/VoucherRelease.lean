import Aixinwu.Lib.Runs
import Aixinwu.Order.ExpireOrders

/-!
# What becomes of the voucher of an expired order

A voucher's books are its codes' counters and flags and the `VoucherCustomer` rows. They should tell
which of its orders are alive: a counter is the number of the code's orders that have not expired, a
row is there as long as such an order of the customer is, and a code for one use is inactive just as
long. Which order used which code, and for whom, is remembered in a history of uses beside the
tables, because the orders do not say.

Creating an order keeps the books when the code is found valid just when the order goes through.
Expiring gives nothing back, in either phase, so it keeps the books as long as no order expires that
used a code of a voucher with books to keep (`books_kept`).

## Main definitions

* `Use`, `State`, `step`
* `Books`
* `Tracked`, `Permitted` — when a step keeps the books

## Main results

* `Books.record` — a recorded use and a new order
* `books_kept`
-/

namespace Aixinwu

namespace Expiry

open Checkout Runs

/-- An order was created with a code, for an e-mail. -/
structure Use where
  order : ℕ
  code : ℕ
  email : Option String
deriving DecidableEq, Repr

/-- The tables, and which orders used which codes. -/
structure State where
  db : Db
  uses : List Use := []

/-- What can happen. -/
inductive Request where
  | create (r : CreateRequest)
  | expire (r : ExpireRequest)

/-- The use that a new order makes of the code on its checkout. -/
def CreateRequest.use (r : CreateRequest) (db : Db) : Option Use :=
  (r.info.codeOf db.toCheckoutDb).map fun vc => ⟨db.nextOrder, vc.2.id, r.email db⟩

variable (minutes : TimeDiffInMinutes)

/-- One call, or one run of the task. -/
def step (s : State) : Request → State
  | .create r =>
    { db := s.db.create r
      uses :=
        if (s.db.create r).orders ≠ s.db.orders then s.uses ++ (r.use s.db).toList else s.uses }
  | .expire r => { s with db := s.db.expireOrders minutes r }

/-- The uses of a code by orders that have not expired. -/
def State.liveUses (s : State) (code : ℕ) : List Use :=
  s.uses.filter fun u => u.code = code && s.db.live u.order

/-- The books of every voucher tell which of its orders are alive. -/
structure Books (s : State) : Prop where
  limited : ∀ c ∈ s.db.codes, ∀ v ∈ s.db.vouchers, v.pk = c.voucher → v.usageLimit.isSome →
    c.used = (s.liveUses c.id).length
  oncePerCustomer : ∀ c ∈ s.db.codes, ∀ v ∈ s.db.vouchers, v.pk = c.voucher →
    v.applyOncePerCustomer →
      ∀ email, ⟨c.id, email⟩ ∈ s.db.customers ↔ ∃ u ∈ s.liveUses c.id, u.email = some email
  singleUse : ∀ c ∈ s.db.codes, ∀ v ∈ s.db.vouchers, v.pk = c.voucher → v.singleUse →
    (c.isActive = false ↔ s.liveUses c.id ≠ [])

/-- The voucher has books to keep. -/
def Tracked (v : Voucher) : Prop := v.usageLimit.isSome ∨ v.applyOncePerCustomer ∨ v.singleUse

instance (v : Voucher) : Decidable (Tracked v) := inferInstanceAs (Decidable (_ ∨ _))

/-- A step that keeps the books. A voucher with books refuses, or its code is found valid just when
the order goes through, and then the order gets the e-mail under which the use is recorded; and no
order expires that used a code of such a voucher. -/
def Permitted (s : State) : Request → Prop
  | .create r => ∀ v c, r.info.codeOf s.db.toCheckoutDb = some (v, c) → Tracked v →
    (∃ v c, r.Finds s.db v c ∧ Refuses s.db.toCheckoutDb v c r.info.getCustomerEmail) ∨
      ((∃ v c, r.Finds s.db v c) ↔ GoesThrough s.db.toCheckoutDb r.info r.failure) ∧
        (v.applyOncePerCustomer → GoesThrough s.db.toCheckoutDb r.info r.failure →
          r.email s.db = r.info.getCustomerEmail)
  | .expire r => ∀ o ∈ s.db.orders, s.db.Expires minutes r o → ∀ u ∈ s.uses, u.order = o.pk →
    ∀ c ∈ s.db.codes, c.id = u.code → ∀ v ∈ s.db.vouchers, v.pk = c.voucher → ¬ Tracked v

/-- What the run starts with: books that are right, orders without a `voucher_code`, and primary
keys from the sequence. -/
structure WellKept (s : State) : Prop where
  books : Books s
  unlinked : Unlinked s.db
  orders : ∀ o ∈ s.db.orders, o.pk < s.db.nextOrder
  uses : ∀ u ∈ s.uses, u.order < s.db.nextOrder

/-! ### Books that do not change -/

variable {minutes} {s : State}

theorem liveUses_congr {t : State} {code : ℕ} (huses : t.uses = s.uses)
    (hlive : ∀ u ∈ s.uses, u.code = code → t.db.live u.order = s.db.live u.order) :
    t.liveUses code = s.liveUses code := by
  rw [State.liveUses, State.liveUses, huses]
  refine List.filter_congr fun u hu => ?_
  by_cases hcode : u.code = code
  · rw [hlive u hu hcode]
  · simp [hcode]

/-- The books depend on the live uses of the codes of tracked vouchers only. -/
theorem Books.congr (h : Books s) {t : State} (husage : t.db.usage = s.db.usage)
    (hvouchers : t.db.vouchers = s.db.vouchers)
    (huses : ∀ c ∈ s.db.codes, ∀ v ∈ s.db.vouchers, v.pk = c.voucher → Tracked v →
      t.liveUses c.id = s.liveUses c.id) : Books t := by
  obtain ⟨hcodes, hcustomers⟩ := Prod.mk.inj husage
  constructor
  · rw [hcodes, hvouchers]
    intro c hc v hv hpk hlimit
    rw [huses c hc v hv hpk (Or.inl hlimit)]
    exact h.limited c hc v hv hpk hlimit
  · rw [hcodes, hvouchers, hcustomers]
    intro c hc v hv hpk honce
    rw [huses c hc v hv hpk (Or.inr (Or.inl honce))]
    exact h.oncePerCustomer c hc v hv hpk honce
  · rw [hcodes, hvouchers]
    intro c hc v hv hpk hsingle
    rw [huses c hc v hv hpk (Or.inr (Or.inr hsingle))]
    exact h.singleUse c hc v hv hpk hsingle

/-! ### A recorded use -/

/-- A limit that is found valid is not zero. -/
theorem limited_of_found {db : CheckoutDb} {checkout : CheckoutRow} {channelSlug : String}
    {now : Time} {v : Voucher} {c : VoucherCode}
    (h : getVoucherForCheckout db checkout channelSlug now = .ok (some (v, c)))
    (hlimit : v.usageLimit.isSome) : v.limited := by
  have hactive : db.voucherActiveInChannel now channelSlug v := by
    rw [getVoucherForCheckout.eq_def] at h
    split at h
    · cases h
    · split at h
      · cases h
      · cases h
      · split at h
        · cases h
        · next voucher hfind =>
          have hp := List.find?_some hfind
          have hp := (Bool.and_eq_true_iff.mp hp).1
          have hv : voucher = v := by
            split at h
            · split at h
              · exact (Prod.mk.inj (Option.some.inj (Except.ok.inj h))).1
              · cases h
            · exact (Prod.mk.inj (Option.some.inj (Except.ok.inj h))).1
          rw [← hv]
          exact hp
  obtain ⟨limit, hlimit⟩ := Option.isSome_iff_exists.mp hlimit
  rw [CheckoutDb.voucherActiveInChannel, CheckoutDb.voucherActive, hlimit] at hactive
  rw [Voucher.limited, hlimit]
  rcases hused : db.totalUsed v with _ | used
  · simp [hused] at hactive
  · simp only [hused, Bool.and_eq_true, decide_eq_true_eq] at hactive
    have : used < limit := hactive.1.1.1
    simp only [ne_eq, decide_eq_true_eq]
    omega

theorem mem_recordCustomer {customers : List VoucherCustomer} {v : Voucher} {c : VoucherCode}
    {email : Option String} (row : VoucherCustomer) :
    row ∈ recordCustomer customers v c email
      ↔ row ∈ customers ∨
        v.applyOncePerCustomer ∧ row.voucherCode = c.id ∧ email = some row.customerEmail := by
  obtain ⟨code, e⟩ := row
  rcases email with _ | email
  · simp [recordCustomer]
  · rw [recordCustomer]
    split
    · next h => simp [h.1, eq_comm]
    · next h =>
      constructor
      · exact Or.inl
      · rintro (hmem | ⟨honce, rfl, hemail⟩)
        · exact hmem
        · obtain rfl := Option.some.inj hemail
          by_contra hnot
          exact h ⟨honce, hnot⟩

/-- **A recorded use and a new order** keep the books together. -/
theorem Books.record (h : Books s) {t : State} {v : Voucher} {c : VoucherCode}
    {email : Option String} {u : Use} (hc : c ∈ s.db.codes) (hv : v ∈ s.db.vouchers)
    (hpk : v.pk = c.voucher) (hlimited : v.usageLimit.isSome → v.limited)
    (husage : t.db.usage = (s.db.recordUsage v c email).usage)
    (hvouchers : t.db.vouchers = s.db.vouchers) (hcode : u.code = c.id)
    (hemail : v.applyOncePerCustomer → u.email = email)
    (huses : ∀ code, t.liveUses code
      = s.liveUses code ++ if u.code = code then [u] else []) : Books t := by
  obtain ⟨hcodes, hcustomers⟩ := Prod.mk.inj husage
  have hcustomers : t.db.customers = recordCustomer s.db.customers v c email := hcustomers
  -- a code is the one that was used, with the changes, or another, as it was
  have hcases : ∀ c' ∈ t.db.codes, ∀ v' ∈ s.db.vouchers, v'.pk = c'.voucher →
      (v' = v ∧ c'.id = c.id ∧ c'.used = (if v.limited then c.used + 1 else c.used) ∧
        c'.isActive = (if v.singleUse then false else c.isActive)) ∨
      (c' ∈ s.db.codes ∧ c'.id ≠ c.id) := by
    intro c' hc' v' hv' hpk'
    rw [hcodes] at hc'
    obtain ⟨c₀, hc₀, rfl⟩ := List.mem_map.mp hc'
    by_cases hid : c₀.id = c.id
    · obtain rfl : c₀ = c := Table.eq_of_pk_eq hc₀ hc hid
      left
      rw [if_pos (by rfl)] at hpk' ⊢
      have hpk'' : v'.pk = c₀.voucher := hpk'
      refine ⟨Table.eq_of_pk_eq hv' hv (hpk''.trans hpk.symm), rfl, ?_, ?_⟩
      · cases v.limited <;> rfl
      · cases v.singleUse <;> rfl
    · right
      rw [if_neg (by simpa using hid)]
      exact ⟨hc₀, hid⟩
  constructor
  · rw [hvouchers]
    intro c' hc' v' hv' hpk' hlimit
    rcases hcases c' hc' v' hv' hpk' with ⟨rfl, hid, hused, -⟩ | ⟨hc₀, hne⟩
    · rw [hused, if_pos (hlimited hlimit), huses, hid, if_pos hcode, List.length_append,
        ← h.limited c hc v' hv hpk hlimit]
      rfl
    · rw [huses, if_neg (fun heq => hne (heq.symm.trans hcode)), List.append_nil]
      exact h.limited c' hc₀ v' hv' hpk' hlimit
  · rw [hvouchers, hcustomers]
    intro c' hc' v' hv' hpk' honce e
    rw [mem_recordCustomer, huses]
    rcases hcases c' hc' v' hv' hpk' with ⟨rfl, hid, -, -⟩ | ⟨hc₀, hne⟩
    · rw [hid, if_pos hcode, h.oncePerCustomer c hc v' hv hpk honce, ← hemail honce]
      simp [honce, or_and_right, exists_or]
    · rw [if_neg (fun heq => hne (heq.symm.trans hcode)), List.append_nil,
        h.oncePerCustomer c' hc₀ v' hv' hpk' honce]
      simp [hne]
  · rw [hvouchers]
    intro c' hc' v' hv' hpk' hsingle
    rw [huses]
    rcases hcases c' hc' v' hv' hpk' with ⟨rfl, hid, -, hactive⟩ | ⟨hc₀, hne⟩
    · rw [hactive, if_pos hsingle, hid, if_pos hcode]
      simp
    · rw [if_neg (fun heq => hne (heq.symm.trans hcode)), List.append_nil]
      exact h.singleUse c' hc₀ v' hv' hpk' hsingle

/-! ### Creating -/

/-- What is found is the code on the checkout. -/
theorem codeOf_of_finds {r : CreateRequest} {db : Db} {v : Voucher} {c : VoucherCode}
    (h : r.Finds db v c) :
    r.info.codeOf db.toCheckoutDb = some (v, c) ∧ c ∈ db.codes ∧ v ∈ db.vouchers ∧
      v.pk = c.voucher := by
  obtain ⟨hc, hcode⟩ := codeOf_of_getVoucherForCheckout h.1 h.2
  obtain ⟨found, hfound, hrow⟩ := getVoucherForCheckout_ok db.toCheckoutDb r.info.checkout
    r.info.channelSlug r.now
  rw [h.2] at hfound
  obtain ⟨-, -, -, hv, hpk⟩ := hrow v c (Except.ok.inj hfound).symm
  exact ⟨hcode, hc, hv, hpk⟩

theorem codeOf_mem {info : CheckoutInfo} {db : CheckoutDb} {v : Voucher} {c : VoucherCode}
    (h : info.codeOf db = some (v, c)) : c ∈ db.codes ∧ v ∈ db.vouchers ∧ v.pk = c.voucher := by
  rw [CheckoutInfo.codeOf] at h
  split at h
  · obtain ⟨c', hc', hv'⟩ := Option.bind_eq_some_iff.mp h
    obtain ⟨v', hfind, hpair⟩ := Option.map_eq_some_iff.mp hv'
    obtain ⟨rfl, rfl⟩ := Prod.mk.inj hpair
    obtain ⟨hv, hpk⟩ := Table.find?_eq_some.mp hfind
    exact ⟨List.mem_of_find?_eq_some hc', hv, hpk⟩
  · cases h

/-- An order at the end of the table is alive, and the others are as alive as before. -/
theorem live_of_appends {r : CreateRequest} {db : Db} (h : r.Appends db (db.create r))
    (order : ℕ) : (db.create r).live order = (db.live order || db.nextOrder = order) := by
  obtain ⟨checkout, hsnoc⟩ := h
  rw [Db.live, hsnoc, List.any_append]
  simp [Db.live, newOrder, CreateRequest.orderAt]

theorem live_of_orders_eq {db db' : Db} (h : db'.orders = db.orders) (order : ℕ) :
    db'.live order = db.live order := by
  rw [Db.live, Db.live, h]

variable {r : CreateRequest}

/-- The live uses after an order was created. -/
theorem liveUses_of_appends (h : WellKept s) (happends : r.Appends s.db (s.db.create r))
    (code : ℕ) :
    (step minutes s (.create r)).liveUses code
      = s.liveUses code ++ (r.use s.db).toList.filter (·.code = code) := by
  have hne : (s.db.create r).orders ≠ s.db.orders := by
    obtain ⟨checkout, hsnoc⟩ := happends
    simp [hsnoc]
  rw [State.liveUses, State.liveUses, step]
  simp only [if_pos hne]
  rw [List.filter_append]
  congr 1
  · refine List.filter_congr fun u hu => ?_
    have hold : s.db.nextOrder ≠ u.order := (h.uses u hu).ne'
    rw [live_of_appends happends]
    simp [hold]
  · refine List.filter_congr fun u hu => ?_
    have hu : r.use s.db = some u := by simpa using hu
    obtain ⟨vc, -, rfl⟩ := Option.map_eq_some_iff.mp hu
    rw [live_of_appends happends]
    simp

/-- The live uses after a call that made no order. -/
theorem liveUses_of_orders_eq (horders : (s.db.create r).orders = s.db.orders) (code : ℕ) :
    (step minutes s (.create r)).liveUses code = s.liveUses code := by
  refine liveUses_congr ?_ fun u _ _ => live_of_orders_eq horders u.order
  simp [step, horders]

/-- Creating an order keeps the books. -/
theorem books_create (h : WellKept s) (hok : Permitted minutes s (.create r)) :
    Books (step minutes s (.create r)) := by
  obtain ⟨hvouchers, ⟨v, c, -, -, husage, horders⟩ |
    ⟨⟨hnot, husage⟩ | ⟨v, c, hfinds, hrefuses, husage⟩, ⟨hthrough, happends⟩ | ⟨hthrough, horders⟩⟩⟩ :=
    create_cases s.db r
  · -- the voucher refuses
    exact h.books.congr husage hvouchers fun c _ v _ _ _ => liveUses_of_orders_eq horders c.id
  · -- an order without a recorded use: the code has no books
    refine h.books.congr husage hvouchers fun c' hc' v' hv' hpk' htracked => ?_
    rw [liveUses_of_appends h happends]
    rcases huse : r.info.codeOf s.db.toCheckoutDb with _ | ⟨v, c⟩
    · simp [CreateRequest.use, huse]
    · have hne : c.id ≠ c'.id := by
        intro hid
        obtain ⟨hc, hv, hpk⟩ := codeOf_mem huse
        obtain rfl : c = c' := Table.eq_of_pk_eq hc hc' hid
        obtain rfl : v = v' := Table.eq_of_pk_eq hv hv' (hpk.trans hpk'.symm)
        rcases hok v c huse htracked with ⟨v, c, hfinds, -⟩ | ⟨hiff, -⟩
        · exact hnot ⟨v, c, hfinds⟩
        · exact hnot (hiff.mpr hthrough)
      simp [CreateRequest.use, huse, hne]
  · exact h.books.congr husage hvouchers fun c _ v _ _ _ => liveUses_of_orders_eq horders c.id
  · -- an order with its use
    obtain ⟨hcode, hc, hv, hpk⟩ := codeOf_of_finds hfinds
    have huse : r.use s.db = some ⟨s.db.nextOrder, c.id, r.email s.db⟩ := by
      rw [CreateRequest.use, hcode]
      rfl
    refine h.books.record hc hv hpk (limited_of_found hfinds.2) husage hvouchers
      (u := ⟨s.db.nextOrder, c.id, r.email s.db⟩) rfl ?_ ?_
    · intro honce
      rcases hok v c hcode (Or.inr (Or.inl honce)) with ⟨v', c', hfinds', hrefuses'⟩ | ⟨-, hemail⟩
      · obtain ⟨rfl, rfl⟩ : v' = v ∧ c' = c := by
          have := hfinds'.2.symm.trans hfinds.2
          exact Prod.mk.inj (Option.some.inj (Except.ok.inj this))
        exact absurd hrefuses' hrefuses
      · exact hemail honce hthrough
    · intro code
      rw [liveUses_of_appends h happends, huse]
      congr 1
      by_cases hcode : c.id = code <;> simp [hcode]
  · -- a use without an order: the code has no books
    obtain ⟨hcode, hc, hv, hpk⟩ := codeOf_of_finds hfinds
    have huntracked : ¬ Tracked v := by
      intro htracked
      rcases hok v c hcode htracked with ⟨v', c', hfinds', hrefuses'⟩ | ⟨hiff, -⟩
      · obtain ⟨rfl, rfl⟩ : v' = v ∧ c' = c := by
          have := hfinds'.2.symm.trans hfinds.2
          exact Prod.mk.inj (Option.some.inj (Except.ok.inj this))
        exact hrefuses hrefuses'
      · exact hthrough (hiff.mp ⟨v, c, hfinds⟩)
    simp only [Tracked, not_or] at huntracked
    have hsame : (s.db.recordUsage v c r.info.getCustomerEmail).usage = s.db.usage := by
      refine (usage_recordUsage_eq_iff hc).mpr ?_
      have hlimited : v.limited = false := by
        have : v.usageLimit = none := by simpa using huntracked.1
        rw [Voucher.limited, this]
      simp [hlimited, huntracked.2.1, huntracked.2.2]
    exact h.books.congr (husage.trans hsame) hvouchers
      fun c _ v _ _ _ => liveUses_of_orders_eq horders c.id

/-- The rest of what a run starts with, after a call. -/
theorem wellKept_create (h : WellKept s) (hok : Permitted minutes s (.create r)) :
    WellKept (step minutes s (.create r)) := by
  have horders : ∀ o ∈ (s.db.create r).orders, o ∈ s.db.orders ∨ o.pk = s.db.nextOrder := by
    obtain ⟨-, ⟨v, c, -, -, -, horders⟩ | ⟨-, ⟨-, checkout, hsnoc⟩ | ⟨-, horders⟩⟩⟩ :=
      create_cases s.db r
    · rw [horders]
      exact fun o ho => Or.inl ho
    · rw [hsnoc]
      intro o ho
      rcases List.mem_append.mp ho with ho | ho
      · exact Or.inl ho
      · rw [List.mem_singleton] at ho
        exact Or.inr (by rw [ho]; rfl)
    · rw [horders]
      exact fun o ho => Or.inl ho
  refine ⟨books_create h hok, ?_, ?_, ?_⟩
  · intro o ho
    show (Function.update s.db.columns s.db.nextOrder (r.columns s.db) o.pk).voucherCode = none
    rcases horders o ho with ho | hpk
    · rw [Function.update_of_ne (h.orders o ho).ne]
      exact h.unlinked o ho
    · rw [hpk, Function.update_self]
      rfl
  · intro o ho
    show o.pk < s.db.nextOrder + 1
    rcases horders o ho with ho | hpk
    · have := h.orders o ho
      omega
    · omega
  · intro u hu
    show u.order < s.db.nextOrder + 1
    have hu : u ∈ s.uses ∨ r.use s.db = some u := by
      simp only [step] at hu
      split at hu
      · rcases List.mem_append.mp hu with hu | hu
        · exact Or.inl hu
        · exact Or.inr (by simpa using hu)
      · exact Or.inl hu
    rcases hu with hu | hu
    · have := h.uses u hu
      omega
    · obtain ⟨vc, -, rfl⟩ := Option.map_eq_some_iff.mp hu
      exact Nat.lt_succ_self _

/-! ### Expiring -/

/-- A run of the task that expires no order with books keeps them. -/
theorem wellKept_expire {r : ExpireRequest} (h : WellKept s)
    (hok : Permitted minutes s (.expire r)) : WellKept (step minutes s (.expire r)) := by
  obtain ⟨husage, hvouchers, hcolumns, hnext, hpks⟩ :=
    @usage_expireOrders minutes s.db r h.unlinked
  have hmem : ∀ o ∈ (s.db.expireOrders minutes r).orders, ∃ o' ∈ s.db.orders, o'.pk = o.pk := by
    intro o ho
    have : o.pk ∈ s.db.orders.map (·.pk) := hpks ▸ List.mem_map_of_mem ho
    exact List.mem_map.mp this
  refine ⟨h.books.congr husage hvouchers ?_, ?_, ?_, ?_⟩
  · intro c hc v hv hpk htracked
    refine liveUses_congr rfl ?_
    intro u hu hcode
    refine live_expireOrders h.unlinked ?_
    intro o ho hpk' hexpires
    exact hok o ho hexpires u hu hpk'.symm c hc hcode.symm v hv hpk htracked
  · intro o ho
    obtain ⟨o', ho', hpk⟩ := hmem o ho
    show ((s.db.expireOrders minutes r).columns o.pk).voucherCode = none
    rw [hcolumns, ← hpk]
    exact h.unlinked o' ho'
  · intro o ho
    obtain ⟨o', ho', hpk⟩ := hmem o ho
    show o.pk < (s.db.expireOrders minutes r).nextOrder
    rw [hnext, ← hpk]
    exact h.orders o' ho'
  · intro u hu
    show u.order < (s.db.expireOrders minutes r).nextOrder
    rw [hnext]
    exact h.uses u hu

/-! ### Every history -/

/-- **The books are right** after every step of a history, as long as every order is created when
its code is found valid and no order with books expires. -/
theorem books_kept (minutes : TimeDiffInMinutes) (s t : State) (rs : List Request)
    (hstart : WellKept s) (h : EachStep (step minutes) (Permitted minutes) s rs)
    (hreached : Reached (step minutes) s rs t) : Books t := by
  have hstep : ∀ s r, WellKept s → Permitted minutes s r → WellKept (step minutes s r) := by
    intro s r hs hok
    cases r with
    | create r => exact wellKept_create hs hok
    | expire r => exact wellKept_expire hs hok
  exact (h.inv_reached hstep hstart hreached).books

/-- Before any order, with codes that were never used. -/
theorem wellKept_of_unused {db : Db} (horders : db.orders = []) (hcustomers : db.customers = [])
    (hcodes : ∀ c ∈ db.codes, c.used = 0 ∧ c.isActive = true) : WellKept ⟨db, []⟩ := by
  refine ⟨⟨?_, ?_, ?_⟩, ?_, ?_, ?_⟩
  · intro c hc v _ _ _
    exact (hcodes c hc).1
  · intro c _ v _ _ _ email
    simp [hcustomers, State.liveUses]
  · intro c hc v _ _ _
    simp [(hcodes c hc).2, State.liveUses]
  · intro o ho
    simp [horders] at ho
  · intro o ho
    simp [horders] at ho
  · intro u hu
    cases hu

/-- Two checkouts, one with a limited voucher; only the orders of the channel of the other
expire. -/
def twoChannelsDb (expireOrdersAfter : ℕ → Option ℤ) : Db where
  toCheckoutDb :=
    { limitedVoucherDb with
      channels := [⟨1, "default", true⟩, ⟨2, "quick", true⟩]
      checkouts := [{ token := "t", voucherCode := some "SAVE", email := some "a@sjtu.edu.cn" },
        { token := "u", email := some "a@sjtu.edu.cn" }] }
  expireOrdersAfter := expireOrdersAfter

theorem wellKept_twoChannels (expireOrdersAfter : ℕ → Option ℤ) :
    WellKept ⟨twoChannelsDb expireOrdersAfter, []⟩ := by
  refine wellKept_of_unused rfl rfl ?_
  intro c hc
  have hc : c = { id := 1, code := "SAVE", voucher := 1 } := List.mem_singleton.mp hc
  rw [hc]
  exact ⟨rfl, rfl⟩

/-- The order with the voucher. -/
def voucherOrder (chargeStatus : OrderChargeStatus) : Request :=
  .create { info := limitedVoucherInfo, order := { someOrder with chargeStatus }, now := 5 }

/-- The order without. -/
def plainOrder : Request :=
  .create
    { info := { checkout := { token := "u" }, channelSlug := "quick", voucher := none }
      order := someOrder, now := 5 }

/-- Both checkouts become orders, and the one without a voucher expires. -/
theorem books_kept_plainExpires :
    Books (run (step fun a b => b - a)
      ⟨twoChannelsDb fun channel => if channel = 2 then some 60 else none, []⟩
      [voucherOrder .none, plainOrder, .expire { now := 100 }]) := by
  refine books_kept (fun a b => b - a) _ _ [voucherOrder .none, plainOrder, .expire { now := 100 }]
    (wellKept_twoChannels _) ?_ (reached_run _ _)
  simp only [eachStep_cons, eachStep_nil, and_true]
  refine ⟨?_, ?_, ?_⟩
  · intro v c hcode _
    refine Or.inr ⟨iff_of_true ⟨limitedVoucher, _, rfl, rfl⟩ ⟨⟨_, List.mem_cons_self, rfl⟩, rfl⟩, ?_⟩
    intro honce
    cases hcode
    cases honce
  · intro v c hcode
    cases hcode
  · intro o ho hexpires u hu hpk
    exfalso
    revert o ho hexpires u hu hpk
    decide +kernel

/-- The order with the voucher expires, unpaid or paid, and its code stays used. -/
theorem books_not_kept :
    ¬ Books (run (step fun a b => b - a) ⟨twoChannelsDb fun _ => some 60, []⟩
      [voucherOrder .none, .expire { now := 100 }]) ∧
    ¬ Books (run (step fun a b => b - a) ⟨twoChannelsDb fun _ => some 60, []⟩
      [voucherOrder .full, .expire { now := 100 }]) := by
  constructor
  all_goals
    intro hbooks
    have hused := hbooks.limited { id := 1, code := "SAVE", used := 1, voucher := 1 }
      List.mem_cons_self limitedVoucher List.mem_cons_self rfl rfl
    revert hused
    decide +kernel

end Expiry

end Aixinwu
