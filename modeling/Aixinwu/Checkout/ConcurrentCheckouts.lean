import Aixinwu.Checkout.CompleteCheckout
import Aixinwu.Lib.Interleaving
import Mathlib

/-!
# Checkouts that are completed at the same time

`create_order_from_checkout` again, cut where another call can come in between: the code is read,
the voucher is read and tested, the row of the code is locked if the voucher has a limit, the use is
recorded, and the order is built in a transaction of its own. Under READ COMMITTED a read sees what
is committed at that moment, and the writes of a transaction are seen together when it commits, so
the writes of each transaction are one step. A call that finds the row of its code locked waits.

What the validity test has read is not looked at again once the lock is there. The limits of a
voucher therefore hold only in runs where the use that a call records still has room when it is
recorded, and where the call finds its voucher valid at all: one that does not goes on and builds
the order with the voucher it was given, without recording anything.

## Main definitions

* `Call`, `advance` — a call between two of its steps, and the step
* `Use`, `Event` — a use that is recorded, an order that is created
* `WithinLimits` — what the limits of a voucher promise
* `CheckoutDb.HasRoom`, `Sound` — the condition
* `Recorded` — how the tables and the recorded uses hang together
* `Consistent` — the invariant of a configuration

## Main results

* `alone_createOrderFromCheckout` — a call that is not interrupted
* `Recorded.record` — a use with room
* `outcome_advance` — what a step can do
* `withinLimits_reached` — every interleaving of sound steps
-/

namespace Aixinwu

namespace Checkout

open Aixinwu.Action Interleaving

/-! ### Calls -/

/-- Where a call stands. -/
inductive Stage where
  | started
  | codeRead (code : VoucherCode)
  | voucherRead (voucher : Voucher) (code : VoucherCode)
  | recording (voucher : Voucher) (code : VoucherCode)
  | ordering (code : Option VoucherCode)
  | finished
deriving DecidableEq, Repr

/-- A call of `create_order_from_checkout`. `order` and `failure` are what building the order comes
to, `assignedEmail` is the e-mail of the account that `assign_checkout_user` finds, if it looks for
one. -/
structure Call (ι : Type*) where
  id : ι
  info : CheckoutInfo
  now : Time
  order : Order
  failure : Option CheckoutError := none
  deleteCheckout : Bool := true
  assignedEmail : Option String := none
  stage : Stage := .started

/-- The call at another stage. -/
def Call.goto {ι : Type*} (t : Call ι) (stage : Stage) : Call ι := { t with stage := stage }

/-- The tables, and the codes whose rows are locked. -/
structure Shared where
  db : CheckoutDb
  locked : List ℕ := []

/-- A use of a voucher: by which call, with which code, for whom. -/
structure Use (ι : Type*) where
  call : ι
  voucher : ℕ
  code : Option String
  customerEmail : Option String
deriving DecidableEq, Repr

/-- What a step achieves. -/
inductive Event (ι : Type*) where
  | used (u : Use ι)
  | ordered (u : Use ι)
deriving DecidableEq, Repr

section Advance

variable {ι : Type*}

/-- The voucher of the order. A call that has none looks again, as `fetch_checkout_info` does. -/
def orderVoucher (db : CheckoutDb) (info : CheckoutInfo) (checkout : CheckoutRow) (now : Time) :
    Option Voucher :=
  match info.voucher with
  | some voucher => some voucher
  | none =>
    match getVoucherForCheckout db checkout info.channelSlug now with
    | .ok (some (voucher, _)) => some voucher
    | _ => none

/-- `user_email` of the order, after `assign_checkout_user`. -/
def orderEmail (checkout : CheckoutRow) (assignedEmail : Option String) : Option String :=
  checkout.userEmail.or (assignedEmail.or checkout.email)

/-- The order with a voucher that the second transaction creates, if it creates one. -/
def Call.orderedUse (t : Call ι) (db : CheckoutDb) : Option (Use ι) :=
  match db.checkouts.find? (·.token = t.info.checkout.token), t.failure with
  | some checkout, none =>
    (orderVoucher db t.info checkout t.now).map fun voucher =>
      { call := t.id
        voucher := voucher.pk
        code := checkout.voucherCode
        customerEmail := orderEmail checkout t.assignedEmail }
  | _, _ => none

/-- The code is the one on the checkout. -/
def CheckoutRow.hasCode (checkout : CheckoutRow) (c : VoucherCode) : Bool :=
  checkout.voucherCode = some c.code

/-- The rows that stay locked when a call has recorded its use, or failed to. -/
def Shared.release (s : Shared) (voucher : Voucher) (code : VoucherCode) : List ℕ :=
  if voucher.usageLimit.isSome then s.locked.erase code.id else s.locked

/-- The next step of a call. -/
def advance (s : Shared) (t : Call ι) : Shared × Call ι × Option (Event ι) :=
  match t.stage with
  | .started =>
    match t.info.voucher, t.info.checkout.voucherCode with
    | some _, some voucherCode =>
      match s.db.codes.get fun c => c.code = voucherCode && c.isActive with
      | .ok code => (s, t.goto (.codeRead code), none)
      | .error .doesNotExist => (s, t.goto (.ordering none), none)
      | .error .multipleObjectsReturned => (s, t.goto .finished, none)
    | _, _ => (s, t.goto (.ordering none), none)
  | .codeRead code =>
    match s.db.vouchers.rows.find? fun v =>
        s.db.voucherActiveInChannel t.now t.info.channelSlug v && v.pk = code.voucher with
    | none => (s, t.goto (.ordering none), none)
    | some voucher => (s, t.goto (.voucherRead voucher code), none)
  | .voucherRead voucher code =>
    if voucher.usageLimit.isSome then
      match s.db.codes.get t.info.checkout.hasCode with
      | .ok row =>
        -- `select_for_update`: the call waits until the row is free
        if row.id ∈ s.locked then (s, t, none)
        else ({ s with locked := row.id :: s.locked }, t.goto (.recording voucher row), none)
      | .error _ => (s, t.goto .finished, none)
    else (s, t.goto (.recording voucher code), none)
  | .recording voucher code =>
    match (increaseVoucherUsage voucher code t.info.getCustomerEmail).exec s.db with
    | (.ok _, db) =>
      ({ db := db, locked := s.release voucher code }, t.goto (.ordering (some code)),
        some (.used ⟨t.id, voucher.pk, code.code, t.info.getCustomerEmail⟩))
    | (.error _, _) => ({ s with locked := s.release voucher code }, t.goto .finished, none)
  | .ordering code =>
    ({ s with
        db := ((atomic (orderBlock t.info code t.order t.failure t.deleteCheckout)).exec s.db).2 },
      t.goto .finished, (t.orderedUse s.db).map .ordered)
  | .finished => (s, t, none)

end Advance

/-! ### A call that is not interrupted -/

section Alone

variable {ι : Type*} {s : Shared} {t : Call ι}

/-- A call that is finished stays so. -/
theorem alone_finished (n : ℕ) : alone advance n s (t.goto .finished) = (s, t.goto .finished) := by
  induction n with
  | zero => rfl
  | succ n ih => exact ih

/-- What is left of a call when the order is to be built. -/
theorem alone_ordering (n : ℕ) (code : Option VoucherCode) :
    (alone advance (n + 1) s (t.goto (.ordering code))).1.db
      = ((atomic (orderBlock t.info code t.order t.failure t.deleteCheckout)).exec s.db).2 := by
  have hstep : ∃ ev, advance s (t.goto (.ordering code))
      = ({ s with db := ((atomic (orderBlock t.info code t.order t.failure
            t.deleteCheckout)).exec s.db).2 }, t.goto .finished, ev) := ⟨_, rfl⟩
  obtain ⟨ev, hstep⟩ := hstep
  rw [alone_succ hstep, alone_finished]

/-- What is left of a call when the use is to be recorded. -/
theorem alone_recording (n : ℕ) (v : Voucher) (c : VoucherCode) :
    (alone advance (n + 2) s (t.goto (.recording v c))).1.db
      = ((atomic (do
          increaseVoucherUsage v c t.info.getCustomerEmail
          pure (some c)) >>= fun code =>
            atomic (orderBlock t.info code t.order t.failure t.deleteCheckout)).exec s.db).2 := by
  rcases huse : (increaseVoucherUsage v c t.info.getCustomerEmail).exec s.db with ⟨e | u, db⟩
  · have hstep : advance s (t.goto (.recording v c))
        = ({ s with locked := s.release v c }, t.goto .finished, none) := by
      simp only [advance, Call.goto, huse]
    rw [alone_succ hstep, alone_finished,
      exec_bind_of_error (exec_atomic_of_error (exec_bind_of_error huse))]
  · have hstep : ∃ ev, advance s (t.goto (.recording v c))
        = ({ db := db, locked := s.release v c }, t.goto (.ordering (some c)), ev) := by
      simp only [advance, Call.goto, huse]
      exact ⟨_, rfl⟩
    obtain ⟨ev, hstep⟩ := hstep
    have hpure : (do increaseVoucherUsage v c t.info.getCustomerEmail; pure (some c) :
        CheckoutAction (Option VoucherCode)).exec s.db = (.ok (some c), db) := by
      rw [exec_bind_of_ok huse, exec_pure]
    rw [alone_succ hstep, alone_ordering, exec_bind_of_ok (exec_atomic_of_ok hpure)]

/-- **A call that is not interrupted**, with no row locked, does what `create_order_from_checkout`
does by itself. -/
theorem alone_createOrderFromCheckout (db : CheckoutDb) (hstage : t.stage = .started) :
    (alone advance 5 ⟨db, []⟩ t).1.db
      = ((createOrderFromCheckout t.info t.order t.failure t.deleteCheckout t.now).exec db).2 := by
  have hgoto : t = t.goto .started := by rw [← hstage]; rfl
  rcases hvoucher : t.info.voucher with _ | v₀
  · have hstep : advance ⟨db, []⟩ t = (⟨db, []⟩, t.goto (.ordering none), none) := by
      simp only [advance, hstage, hvoucher]
    rw [alone_succ hstep, alone_ordering, createOrderFromCheckout, hvoucher]
    rfl
  -- the first block, by what the lookup finds
  have hsplit : createOrderFromCheckout t.info t.order t.failure t.deleteCheckout t.now
      = atomic (increaseVoucherCodeUsage t.info t.now) >>= fun code =>
        atomic (orderBlock t.info code t.order t.failure t.deleteCheckout) := by
    rw [createOrderFromCheckout, hvoucher]
  have hnone (h : getVoucherForCheckout db t.info.checkout t.info.channelSlug t.now = .ok none) :
      ((createOrderFromCheckout t.info t.order t.failure t.deleteCheckout t.now).exec db).2
        = ((atomic (orderBlock t.info none t.order t.failure t.deleteCheckout)).exec db).2 := by
    rw [hsplit, exec_bind_of_ok (exec_increaseVoucherCodeUsage_of_none h)]
  have hsome {v : Voucher} {c : VoucherCode}
      (h : getVoucherForCheckout db t.info.checkout t.info.channelSlug t.now = .ok (some (v, c))) :
      ((createOrderFromCheckout t.info t.order t.failure t.deleteCheckout t.now).exec db).2
        = ((atomic (do
            increaseVoucherUsage v c t.info.getCustomerEmail
            pure (some c)) >>= fun code =>
              atomic (orderBlock t.info code t.order t.failure t.deleteCheckout)).exec db).2 := by
    have hblock : (increaseVoucherCodeUsage t.info t.now).exec db
        = (do increaseVoucherUsage v c t.info.getCustomerEmail; pure (some c) :
            CheckoutAction (Option VoucherCode)).exec db := by
      rw [increaseVoucherCodeUsage, exec_bind, exec_get]
      simp only [h]
    rw [hsplit, exec_bind, exec_bind, exec_atomic, exec_atomic, hblock]
  rcases hcode : t.info.checkout.voucherCode with _ | voucherCode
  · have hstep : advance ⟨db, []⟩ t = (⟨db, []⟩, t.goto (.ordering none), none) := by
      simp only [advance, hstage, hvoucher, hcode]
    rw [alone_succ hstep, alone_ordering, hnone (by simp only [getVoucherForCheckout, hcode])]
  rcases get_code_cases db voucherCode (·.isActive) with ⟨c, hc, hs, hactive, hget⟩ | hget
  swap
  · have hstep : advance ⟨db, []⟩ t = (⟨db, []⟩, t.goto (.ordering none), none) := by
      simp only [advance, hstage, hvoucher, hcode, hget]
    rw [alone_succ hstep, alone_ordering, hnone (by simp only [getVoucherForCheckout, hcode, hget])]
  have hread : advance ⟨db, []⟩ t = (⟨db, []⟩, t.goto (.codeRead c), none) := by
    simp only [advance, hstage, hvoucher, hcode, hget]
  rw [alone_succ hread]
  rcases hfind : db.vouchers.rows.find? fun v =>
      db.voucherActiveInChannel t.now t.info.channelSlug v && v.pk = c.voucher with _ | v
  · have hstep : advance ⟨db, []⟩ (t.goto (.codeRead c))
        = (⟨db, []⟩, t.goto (.ordering none), none) := by
      simp only [advance, Call.goto, hfind]
    rw [alone_succ hstep, alone_ordering,
      hnone (by simp only [getVoucherForCheckout, hcode, hget, hfind])]
  have hstep : advance ⟨db, []⟩ (t.goto (.codeRead c))
      = (⟨db, []⟩, t.goto (.voucherRead v c), none) := by
    simp only [advance, Call.goto, hfind]
  rw [alone_succ hstep]
  have hagain : db.codes.get (fun c => c.code = voucherCode) = .ok c := by
    refine Table.get_eq_ok.mpr ⟨hc, by simp [hs], fun c' hc' hs' => ?_⟩
    exact code_eq_of_code_eq hc' hc ((by simpa using hs' : c'.code = voucherCode).trans hs.symm)
  have hsame : t.info.checkout.hasCode = fun c => decide (c.code = voucherCode) := by
    funext c
    simp only [CheckoutRow.hasCode, hcode, Option.some.injEq, eq_comm]
  have hlocked : ∃ locked, advance ⟨db, []⟩ (t.goto (.voucherRead v c))
      = (⟨db, locked⟩, t.goto (.recording v c), none) := by
    by_cases hlimit : v.usageLimit.isSome
    · refine ⟨[c.id], ?_⟩
      simp only [advance, Call.goto, hlimit, if_true, hsame, hagain, List.not_mem_nil, if_false]
    · refine ⟨[], ?_⟩
      simp only [advance, Call.goto, hlimit, Bool.false_eq_true, if_false]
  obtain ⟨locked, hlocked⟩ := hlocked
  have hfound : getVoucherForCheckout db t.info.checkout t.info.channelSlug t.now
      = .ok (some (v, c)) := by
    simp only [getVoucherForCheckout, hcode, hget, hfind, hagain, ite_self]
  rw [alone_succ hlocked, alone_recording, hsome hfound]

end Alone

/-! ### What the limits promise -/

/-- The uses that were recorded. -/
def usesOf {ι : Type*} (log : List (Event ι)) : List (Use ι) :=
  log.filterMap fun | .used u => some u | .ordered _ => none

/-- The orders that were created with a voucher. -/
def ordersOf {ι : Type*} (log : List (Event ι)) : List (Use ι) :=
  log.filterMap fun | .used _ => none | .ordered u => some u

/-- Those of one voucher. -/
def usesWith {ι : Type*} (voucher : ℕ) (us : List (Use ι)) : List (Use ι) :=
  us.filter (·.voucher = voucher)

/-- The counters of all codes of a voucher. -/
def CheckoutDb.usedOver (db : CheckoutDb) (voucher : ℕ) : ℕ :=
  (db.codes.rows.map fun c => if c.voucher = voucher then c.used else 0).sum

/-- The orders of a run with the voucher are within its limits: over all codes together, and with
what had been counted before; one for a code; one for an e-mail. -/
structure WithinLimits {ι : Type*} (start : CheckoutDb) (v : Voucher) (orders : List (Use ι)) :
    Prop where
  usageLimit : ∀ n, v.usageLimit = some n → usesWith v.pk orders ≠ [] →
    start.usedOver v.pk + (usesWith v.pk orders).length ≤ n
  singleUse : v.singleUse → ((usesWith v.pk orders).map (·.code)).Nodup
  oncePerCustomer : v.applyOncePerCustomer → ((usesWith v.pk orders).map (·.customerEmail)).Nodup

/-- The voucher has a limit of some kind. -/
def CheckoutDb.Restricted (db : CheckoutDb) (voucher : ℕ) : Prop :=
  ∃ v ∈ db.vouchers.rows, v.pk = voucher ∧
    (v.usageLimit.isSome ∨ v.singleUse ∨ v.applyOncePerCustomer)

instance (db : CheckoutDb) (voucher : ℕ) : Decidable (db.Restricted voucher) :=
  inferInstanceAs (Decidable (∃ v ∈ db.vouchers.rows, _))

/-- There is room for one more use: below the limit over all codes, with a code that is still
active if it may be used once, by a customer who has used none of the codes. -/
structure CheckoutDb.HasRoom (db : CheckoutDb) (v : Voucher) (code : VoucherCode)
    (customerEmail : Option String) : Prop where
  usageLimit : ∀ n ∈ v.usageLimit, db.usedOver v.pk < n
  singleUse : v.singleUse → ∀ c ∈ db.codes.rows, c.id = code.id → c.isActive
  oncePerCustomer : v.applyOncePerCustomer → ∀ c ∈ db.codes.rows, c.voucher = v.pk →
    ∀ email ∈ customerEmail, ⟨c.id, email⟩ ∉ db.customers

variable {ι : Type*}

/-- **The condition** on a step. A call whose checkout has a restricted voucher finds the code
active, then the voucher valid; a use that is recorded has room when it is recorded; the checkout
that becomes an order still has the code and the customer of the use. A call without a voucher does
not come by one when it looks again. -/
def Sound (s : Shared) (t : Call ι) : Prop :=
  match t.stage with
  | .started => ∀ v ∈ t.info.voucher, s.db.Restricted v.pk →
      ∃ c ∈ s.db.codes.rows, t.info.checkout.hasCode c ∧ c.isActive
  | .codeRead code => ∀ v ∈ t.info.voucher, s.db.Restricted v.pk →
      v.pk = code.voucher ∧ ∃ v' ∈ s.db.vouchers.rows, v'.pk = code.voucher ∧
        s.db.voucherActiveInChannel t.now t.info.channelSlug v'
  | .recording voucher code => ¬ Refuses s.db voucher code t.info.getCustomerEmail →
      s.db.HasRoom voucher code t.info.getCustomerEmail
  | .ordering _ => ∀ u ∈ t.orderedUse s.db, s.db.Restricted u.voucher →
      t.info.voucher.isSome ∧ u.code = t.info.checkout.voucherCode ∧
        u.customerEmail = t.info.getCustomerEmail
  | .voucherRead .. | .finished => True

instance (db : CheckoutDb) (v : Voucher) (code : VoucherCode) (customerEmail : Option String) :
    Decidable (db.HasRoom v code customerEmail) :=
  decidable_of_iff
    ((∀ n ∈ v.usageLimit, db.usedOver v.pk < n) ∧
      (v.singleUse → ∀ c ∈ db.codes.rows, c.id = code.id → c.isActive) ∧
      (v.applyOncePerCustomer → ∀ c ∈ db.codes.rows, c.voucher = v.pk →
        ∀ email ∈ customerEmail, ⟨c.id, email⟩ ∉ db.customers))
    ⟨fun h => ⟨h.1, h.2.1, h.2.2⟩, fun h => ⟨h.usageLimit, h.singleUse, h.oncePerCustomer⟩⟩

instance (db : CheckoutDb) (v : Voucher) (code : VoucherCode) :
    ∀ customerEmail, Decidable (Refuses db v code customerEmail)
  | none => inferInstanceAs (Decidable (_ ∧ True))
  | some _ => inferInstanceAs (Decidable (_ ∧ _ ∈ db.customers))

instance (s : Shared) : ∀ t : Call ι, Decidable (Sound s t)
  | ⟨_, info, _, _, _, _, _, .started⟩ =>
    inferInstanceAs (Decidable (∀ v ∈ info.voucher, s.db.Restricted v.pk → _))
  | ⟨_, info, _, _, _, _, _, .codeRead code⟩ =>
    inferInstanceAs (Decidable (∀ v ∈ info.voucher, s.db.Restricted v.pk → v.pk = code.voucher ∧ _))
  | ⟨_, info, _, _, _, _, _, .recording voucher code⟩ =>
    inferInstanceAs (Decidable (¬ Refuses s.db voucher code info.getCustomerEmail → _))
  | ⟨id, info, now, order, failure, deleteCheckout, assignedEmail, .ordering code⟩ =>
    inferInstanceAs (Decidable (∀ u ∈ Call.orderedUse
      ⟨id, info, now, order, failure, deleteCheckout, assignedEmail, .ordering code⟩ s.db,
      s.db.Restricted u.voucher → _))
  | ⟨_, _, _, _, _, _, _, .voucherRead ..⟩ | ⟨_, _, _, _, _, _, _, .finished⟩ =>
    inferInstanceAs (Decidable True)

/-! ### The tables and the recorded uses -/

@[simp] theorem usesOf_append (l l' : List (Event ι)) :
    usesOf (l ++ l') = usesOf l ++ usesOf l' := List.filterMap_append

@[simp] theorem ordersOf_append (l l' : List (Event ι)) :
    ordersOf (l ++ l') = ordersOf l ++ ordersOf l' := List.filterMap_append

theorem mem_usesWith {k : ℕ} {us : List (Use ι)} {u : Use ι} :
    u ∈ usesWith k us ↔ u ∈ us ∧ u.voucher = k := by
  simp [usesWith]

theorem usesWith_concat (k : ℕ) (us : List (Use ι)) (u : Use ι) :
    usesWith k (us ++ [u]) = if u.voucher = k then usesWith k us ++ [u] else usesWith k us := by
  by_cases h : u.voucher = k <;> simp [usesWith, h]

/-- A list without repetition to which something new is added. -/
theorem nodup_map_concat {τ : Type*} {f : Use ι → τ} {us : List (Use ι)} {u : Use ι}
    (h : (us.map f).Nodup) (hnew : ∀ u' ∈ us, f u' ≠ f u) : ((us ++ [u]).map f).Nodup := by
  rw [List.map_append, List.map_singleton, ← List.concat_eq_append]
  refine h.concat fun hmem => ?_
  obtain ⟨u', hu', heq⟩ := List.mem_map.mp hmem
  exact hnew u' hu' heq

/-- What never changes about a code. -/
def VoucherCode.identity (c : VoucherCode) : ℕ × String × ℕ := (c.id, c.code, c.voucher)

/-- What the calls never change: the vouchers, and which code belongs to which. -/
def CheckoutDb.SameVouchers (start db : CheckoutDb) : Prop :=
  db.vouchers = start.vouchers ∧
    db.codes.rows.map VoucherCode.identity = start.codes.rows.map VoucherCode.identity

/-- The code has a row in these tables. -/
def CheckoutDb.Knows (db : CheckoutDb) (c : VoucherCode) : Prop :=
  c.identity ∈ db.codes.rows.map VoucherCode.identity

theorem restricted_congr {start db : CheckoutDb} (h : start.SameVouchers db) (k : ℕ) :
    db.Restricted k ↔ start.Restricted k := by
  rw [CheckoutDb.Restricted, CheckoutDb.Restricted, h.1]

/-- The tables and the uses recorded since `start`. -/
structure Recorded (start db : CheckoutDb) (uses : List (Use ι)) : Prop where
  same : start.SameVouchers db
  used : ∀ v ∈ start.vouchers, v.limited →
    db.usedOver v.pk = start.usedOver v.pk + (usesWith v.pk uses).length
  within : ∀ v ∈ start.vouchers, WithinLimits start v uses
  inactive : ∀ v ∈ start.vouchers, v.singleUse → ∀ u ∈ usesWith v.pk uses,
    ∀ c ∈ db.codes, u.code = some c.code → c.isActive = false
  customers : ∀ v ∈ start.vouchers, v.applyOncePerCustomer → ∀ u ∈ usesWith v.pk uses,
    ∃ c ∈ db.codes, c.voucher = v.pk ∧ ∃ email, u.customerEmail = some email ∧
      ⟨c.id, email⟩ ∈ db.customers

/-- At the start. -/
theorem Recorded.refl (db : CheckoutDb) : Recorded db db ([] : List (Use ι)) where
  same := ⟨rfl, rfl⟩
  used := fun _ _ _ => rfl
  within := fun _ _ => ⟨fun _ _ h => absurd rfl h, fun _ => List.nodup_nil, fun _ => List.nodup_nil⟩
  inactive := fun _ _ _ _ hu => nomatch hu
  customers := fun _ _ _ _ hu => nomatch hu

/-- What happens to other tables does not matter. -/
theorem Recorded.of_eq {start db db' : CheckoutDb} {uses : List (Use ι)}
    (h : Recorded start db uses) (hvouchers : db'.vouchers = db.vouchers)
    (husage : db'.usage = db.usage) : Recorded start db' uses := by
  obtain ⟨hcodes, hcustomers⟩ := Prod.mk.inj husage
  have hover : db'.usedOver = db.usedOver := by
    funext k
    rw [CheckoutDb.usedOver, CheckoutDb.usedOver, hcodes]
  refine ⟨⟨hvouchers.trans h.same.1, ?_⟩, ?_, h.within, ?_, ?_⟩
  · rw [hcodes]
    exact h.same.2
  · rw [hover]
    exact h.used
  · rw [hcodes]
    exact h.inactive
  · rw [hcodes, hcustomers]
    exact h.customers

section RecordUsage

variable {start db : CheckoutDb} {v : Voucher} {code : VoucherCode} {customerEmail : Option String}

theorem sameVouchers_recordUsage (h : start.SameVouchers db) :
    start.SameVouchers (db.recordUsage v code customerEmail) := by
  refine ⟨h.1, Eq.trans ?_ h.2⟩
  exact Table.map_rows_modify _ _ _ (VoucherCode.pk_update _ _) fun _ => rfl

/-- The counters after a use. -/
theorem usedOver_recordUsage (hcode : db.Knows code) (k : ℕ) :
    (db.recordUsage v code customerEmail).usedOver k
      = db.usedOver k + if v.limited ∧ code.voucher = k then 1 else 0 := by
  obtain ⟨row, hrow, hid⟩ := List.mem_map.mp hcode
  simp only [VoucherCode.identity, Prod.mk.injEq] at hid
  have hsum := Table.sum_modify db.codes hrow
    (VoucherCode.update (if v.limited then (· + 1) else id)
      (if v.singleUse then fun _ => false else id))
    (VoucherCode.pk_update _ _) fun c => if c.voucher = k then (c.used : ℤ) else 0
  have hcast (t : Table VoucherCode) :
      (((t.rows.map fun c => if c.voucher = k then c.used else 0).sum : ℕ) : ℤ)
        = (t.rows.map fun c => if c.voucher = k then (c.used : ℤ) else 0).sum := by
    rw [Nat.cast_list_sum, List.map_map]
    refine congrArg _ (List.map_congr_left fun c _ => ?_)
    simp only [Function.comp_apply, Nat.cast_ite, Nat.cast_zero]
  have hpk : HasPk.pk row = code.id := hid.1
  rw [← hcast, ← hcast, hpk] at hsum
  have hdelta : ((if (row.update (if v.limited then (· + 1) else id)
        (if v.singleUse then fun _ => false else id)).voucher = k
      then ((row.update (if v.limited then (· + 1) else id)
        (if v.singleUse then fun _ => false else id)).used : ℤ) else 0)
        - if row.voucher = k then (row.used : ℤ) else 0)
      = ((if v.limited ∧ code.voucher = k then 1 else 0 : ℕ) : ℤ) := by
    simp only [VoucherCode.update, hid.2.2]
    by_cases hk : code.voucher = k
    · cases v.limited <;> simp [hk]
    · simp [hk]
  rw [hdelta] at hsum
  exact Int.ofNat_inj.mp (hsum.trans (Nat.cast_add _ _).symm)

/-- A row after a use. -/
def usedRow (v : Voucher) (code c : VoucherCode) : VoucherCode :=
  if c.id = code.id then
    c.update (if v.limited then (· + 1) else id) (if v.singleUse then fun _ => false else id)
  else c

theorem identity_usedRow (c : VoucherCode) : (usedRow v code c).identity = c.identity := by
  rw [usedRow]
  split <;> rfl

/-- What is inactive stays so. -/
theorem isActive_usedRow_of_inactive {c : VoucherCode} (h : c.isActive = false) :
    (usedRow v code c).isActive = false := by
  rw [usedRow]
  split
  · rw [VoucherCode.update]
    cases v.singleUse
    · exact h
    · rfl
  · exact h

theorem isActive_usedRow_self (hsingle : v.singleUse) {c : VoucherCode} (hid : c.id = code.id) :
    (usedRow v code c).isActive = false := by
  rw [usedRow, if_pos hid, if_pos hsingle, VoucherCode.update]

theorem mem_codes_recordUsage {c' : VoucherCode} :
    c' ∈ (db.recordUsage v code customerEmail).codes ↔
      ∃ c ∈ db.codes, usedRow v code c = c' := by
  rw [Table.mem_def]
  show c' ∈ (db.codes.modify _ _ (VoucherCode.pk_update _ _)).rows ↔ _
  rw [Table.modify, Table.rows_map, List.mem_map]
  rfl

theorem mem_customers_recordUsage {row : VoucherCustomer} (h : row ∈ db.customers) :
    row ∈ (db.recordUsage v code customerEmail).customers := by
  show row ∈ recordCustomer _ _ _ _
  rcases customerEmail with _ | email
  · exact h
  · rw [recordCustomer]
    split
    · exact List.mem_append_left _ h
    · exact h

/-- A use that is not refused leaves the row of the customer. -/
theorem customer_recordUsage (honce : v.applyOncePerCustomer)
    (hrefuses : ¬ Refuses db v code customerEmail) :
    ∃ email, customerEmail = some email ∧
      ⟨code.id, email⟩ ∈ (db.recordUsage v code customerEmail).customers := by
  rcases customerEmail with _ | email
  · exact absurd ⟨honce, trivial⟩ hrefuses
  · refine ⟨email, rfl, ?_⟩
    have hnew : ⟨code.id, email⟩ ∉ db.customers := fun hmem => hrefuses ⟨honce, hmem⟩
    show _ ∈ recordCustomer db.customers v code (some email)
    rw [recordCustomer, if_pos ⟨honce, hnew⟩]
    exact List.mem_append_right _ (List.mem_singleton_self _)

/-- **A use with room** that is recorded leaves everything within the limits. -/
theorem Recorded.record {uses : List (Use ι)} (h : Recorded start db uses) {i : ι}
    (hv : v ∈ start.vouchers) (hcode : start.Knows code) (hpk : v.pk = code.voucher)
    (hrefuses : ¬ Refuses db v code customerEmail) (hroom : db.HasRoom v code customerEmail) :
    Recorded start (db.recordUsage v code customerEmail)
      (uses ++ [⟨i, v.pk, some code.code, customerEmail⟩]) := by
  have hknows : db.Knows code := by
    rw [CheckoutDb.Knows, h.same.2]
    exact hcode
  have hown {w : Voucher} (hw : w ∈ start.vouchers) (hwpk : v.pk = w.pk) : w = v :=
    Table.eq_of_pk_eq hw hv hwpk.symm
  have hused : ∀ w ∈ start.vouchers, w.limited →
      (db.recordUsage v code customerEmail).usedOver w.pk = start.usedOver w.pk
        + (usesWith w.pk (uses ++ [⟨i, v.pk, some code.code, customerEmail⟩])).length := by
    intro w hw hlimited
    rw [usedOver_recordUsage hknows, usesWith_concat, h.used w hw hlimited]
    by_cases hvw : v.pk = w.pk
    · obtain rfl := hown hw hvw
      rw [if_pos ⟨hlimited, hpk.symm⟩, if_pos rfl, List.length_append, List.length_singleton]
      omega
    · rw [if_neg fun hboth => hvw (hpk.trans hboth.2), if_neg hvw, add_zero]
  refine ⟨sameVouchers_recordUsage h.same, hused, fun w hw => ?_, fun w hw hsingle => ?_,
    fun w hw honce => ?_⟩
  · have hkeep := h.within w hw
    by_cases hvw : v.pk = w.pk
    swap
    · refine ⟨?_, ?_, ?_⟩ <;> rw [usesWith_concat, if_neg hvw]
      · exact hkeep.usageLimit
      · exact hkeep.singleUse
      · exact hkeep.oncePerCustomer
    obtain rfl := hown hw hvw
    refine ⟨?_, ?_, ?_⟩
    · -- the counters are right, and there was room
      intro n hn _
      have hlt := hroom.usageLimit n hn
      have hlimited : w.limited := by
        simp only [Voucher.limited, hn]
        exact decide_eq_true (by omega)
      rw [← hused w hw hlimited, usedOver_recordUsage hknows, if_pos ⟨hlimited, hpk.symm⟩]
      omega
    · -- the codes used before are inactive, this one is not
      intro hsingle
      rw [usesWith_concat, if_pos rfl]
      refine nodup_map_concat (hkeep.singleUse hsingle) fun u hu hcodeEq => ?_
      obtain ⟨row, hrow, hid⟩ := List.mem_map.mp hknows
      simp only [VoucherCode.identity, Prod.mk.injEq] at hid
      have hinactive := h.inactive w hw hsingle u hu row hrow (by rw [hcodeEq, hid.2.1])
      have hactive := hroom.singleUse hsingle row hrow hid.1
      rw [hinactive] at hactive
      cases hactive
    · -- the customers of the uses before have their rows, this one has none
      intro honce
      rw [usesWith_concat, if_pos rfl]
      refine nodup_map_concat (hkeep.oncePerCustomer honce) fun u hu hemailEq => ?_
      obtain ⟨c, hc, hcv, email, hemail, hmem⟩ := h.customers w hw honce u hu
      exact hroom.oncePerCustomer honce c hc hcv email (hemailEq.symm.trans hemail) hmem
  · intro u hu c' hc' hcodeEq
    obtain ⟨c, hc, rfl⟩ := mem_codes_recordUsage.mp hc'
    have hsame : (usedRow v code c).code = c.code :=
      congrArg (·.2.1) (identity_usedRow c)
    rw [hsame] at hcodeEq
    rcases List.mem_append.mp (mem_usesWith.mp hu).1 with huses | hnew
    · have hold := h.inactive w hw hsingle u (mem_usesWith.mpr ⟨huses, (mem_usesWith.mp hu).2⟩)
      exact isActive_usedRow_of_inactive (hold c hc hcodeEq)
    · -- the row of the code that was used just now
      obtain rfl := List.mem_singleton.mp hnew
      obtain rfl := hown hw (mem_usesWith.mp hu).2
      obtain ⟨row, hrow, hid⟩ := List.mem_map.mp hknows
      simp only [VoucherCode.identity, Prod.mk.injEq] at hid
      obtain rfl := code_eq_of_code_eq hrow hc (hid.2.1.trans (Option.some.inj hcodeEq))
      exact isActive_usedRow_self hsingle hid.1
  · intro u hu
    rcases List.mem_append.mp (mem_usesWith.mp hu).1 with huses | hnew
    · obtain ⟨c, hc, hcv, email, hemail, hmem⟩ :=
        h.customers w hw honce u (mem_usesWith.mpr ⟨huses, (mem_usesWith.mp hu).2⟩)
      have hsame := Prod.mk.inj (identity_usedRow c : (usedRow v code c).identity = _)
      refine ⟨usedRow v code c, mem_codes_recordUsage.mpr ⟨c, hc, rfl⟩, ?_, email, hemail, ?_⟩
      · rw [(Prod.mk.inj hsame.2).2, hcv]
      · rw [hsame.1]
        exact mem_customers_recordUsage hmem
    · obtain rfl := List.mem_singleton.mp hnew
      obtain rfl := hown hw (mem_usesWith.mp hu).2
      obtain ⟨row, hrow, hid⟩ := List.mem_map.mp hknows
      have hsame := (identity_usedRow row : (usedRow w code row).identity = _).trans hid
      simp only [VoucherCode.identity, Prod.mk.injEq] at hsame
      obtain ⟨email, hemail, hmem⟩ := customer_recordUsage honce hrefuses
      refine ⟨usedRow w code row, mem_codes_recordUsage.mpr ⟨row, hrow, rfl⟩, ?_, email, hemail, ?_⟩
      · rw [hsame.2.2, hpk]
      · rw [hsame.1]
        exact hmem

end RecordUsage

/-! ### Every interleaving -/

/-- What a call has read, or done, agrees with the tables and with what was recorded. -/
def Call.Follows (start : CheckoutDb) (uses : List (Use ι)) (t : Call ι) : Prop :=
  match t.stage with
  | .started | .finished => True
  | .codeRead code => start.Knows code ∧ t.info.checkout.hasCode code
  | .voucherRead v code | .recording v code =>
    start.Knows code ∧ t.info.checkout.hasCode code ∧ v ∈ start.vouchers ∧ v.pk = code.voucher ∧
      ∀ v₀ ∈ t.info.voucher, start.Restricted v₀.pk → v₀.pk = code.voucher
  | .ordering _ => ∀ v₀ ∈ t.info.voucher, start.Restricted v₀.pk →
      ⟨t.id, v₀.pk, t.info.checkout.voucherCode, t.info.getCustomerEmail⟩ ∈ uses

theorem Call.Follows.mono {start : CheckoutDb} {uses : List (Use ι)} {t : Call ι}
    (h : t.Follows start uses) (us : List (Use ι)) : t.Follows start (uses ++ us) := by
  rw [Follows] at h ⊢
  split at h
  case h_6 => exact fun v₀ hv₀ hr => List.mem_append_left _ (h v₀ hv₀ hr)
  all_goals exact h

/-- **The invariant** of a configuration: every call that is not finished has no order, every order
has a call of its own and, if its voucher is restricted, a recorded use. -/
structure Consistent (start : CheckoutDb) (c : Config ι Shared (Call ι) (Event ι)) : Prop where
  recorded : Recorded start c.shared.db (usesOf c.log)
  id : ∀ i, (c.threads i).id = i
  follows : ∀ i, (c.threads i).Follows start (usesOf c.log)
  pending : ∀ i, (c.threads i).stage ≠ .finished → i ∉ (ordersOf c.log).map (·.call)
  once : ((ordersOf c.log).map (·.call)).Nodup
  ordered : ∀ u ∈ ordersOf c.log, start.Restricted u.voucher → u ∈ usesOf c.log

/-- What a step does: it reads or waits or gives up, it records a use, or it builds the order. -/
inductive Outcome (s : Shared) (t : Call ι) : Shared × Call ι × Option (Event ι) → Prop where
  | quiet (locked : List ℕ) (stage : Stage)
      (hstage : t.stage ≠ .finished ∨ stage = .finished)
      (hfollows : ∀ {start : CheckoutDb} {uses : List (Use ι)}, start.SameVouchers s.db →
        t.Follows start uses → Sound s t → (t.goto stage).Follows start uses) :
      Outcome s t (⟨s.db, locked⟩, t.goto stage, none)
  | used (v : Voucher) (code : VoucherCode) (locked : List ℕ) (hstage : t.stage = .recording v code)
      (hrefuses : ¬ Refuses s.db v code t.info.getCustomerEmail) :
      Outcome s t (⟨s.db.recordUsage v code t.info.getCustomerEmail, locked⟩,
        t.goto (.ordering (some code)),
        some (.used ⟨t.id, v.pk, code.code, t.info.getCustomerEmail⟩))
  | ordered (code : Option VoucherCode) (db : CheckoutDb) (hstage : t.stage = .ordering code)
      (hvouchers : db.vouchers = s.db.vouchers) (husage : db.usage = s.db.usage) :
      Outcome s t (⟨db, s.locked⟩, t.goto .finished, (t.orderedUse s.db).map .ordered)

theorem knows_of_mem {start db : CheckoutDb} (h : start.SameVouchers db) {c : VoucherCode}
    (hc : c ∈ db.codes) : start.Knows c := by
  rw [CheckoutDb.Knows, ← h.2]
  exact List.mem_map_of_mem hc

theorem identity_eq_of_hasCode {start : CheckoutDb} {checkout : CheckoutRow} {c c' : VoucherCode}
    (hc : start.Knows c) (hc' : start.Knows c') (h : checkout.hasCode c)
    (h' : checkout.hasCode c') : c.identity = c'.identity := by
  obtain ⟨r, hr, hid⟩ := List.mem_map.mp hc
  obtain ⟨r', hr', hid'⟩ := List.mem_map.mp hc'
  have hcode : c.code = c'.code :=
    Option.some.inj ((decide_eq_true_iff.mp h).symm.trans (decide_eq_true_iff.mp h'))
  have hrcode : r.code = c.code := congrArg (·.2.1) hid
  have hrcode' : r'.code = c'.code := congrArg (·.2.1) hid'
  obtain rfl := code_eq_of_code_eq hr hr' (by rw [hrcode, hcode, hrcode'])
  exact hid.symm.trans hid'

/-- **One step** has one of the three outcomes. -/
theorem outcome_advance (s : Shared) (t : Call ι) : Outcome s t (advance s t) := by
  rcases hstage : t.stage with _ | code | ⟨v, code⟩ | ⟨v, code⟩ | code | _
  · -- the code is read
    have hnot : t.stage ≠ .finished := by rw [hstage]; exact nofun
    have hread (hsound : Sound s t) : ∀ v ∈ t.info.voucher, s.db.Restricted v.pk →
        ∃ c ∈ s.db.codes.rows, t.info.checkout.hasCode c ∧ c.isActive := by
      simpa only [Sound, hstage] using hsound
    simp only [advance, hstage]
    rcases hvoucher : t.info.voucher with _ | v₀
    · refine .quiet s.locked _ (Or.inl hnot) fun _ _ _ v hv => ?_
      have hv' : v ∈ t.info.voucher := hv
      rw [hvoucher] at hv'
      cases hv'
    rcases hcode : t.info.checkout.voucherCode with _ | voucherCode
    · dsimp only
      refine .quiet s.locked _ (Or.inl hnot) fun hsame _ hsound v hv hr => ?_
      obtain ⟨c, -, hc, -⟩ := hread hsound v hv ((restricted_congr hsame _).mpr hr)
      simp [CheckoutRow.hasCode, hcode] at hc
    dsimp only
    rcases hget : s.db.codes.get fun c => c.code = voucherCode && c.isActive with e | code
    · rcases e with _ | _
      · refine .quiet s.locked _ (Or.inl hnot) fun hsame _ hsound v hv hr => ?_
        obtain ⟨c, hmem, hc, hactive⟩ := hread hsound v hv ((restricted_congr hsame _).mpr hr)
        rw [CheckoutRow.hasCode, hcode, decide_eq_true_iff, Option.some.injEq] at hc
        exact absurd (by simp [hc, hactive]) (Table.get_eq_doesNotExist.mp hget c hmem)
      · exact .quiet s.locked _ (Or.inr rfl) fun _ _ _ => trivial
    · refine .quiet s.locked _ (Or.inl hnot) fun hsame _ _ => ?_
      obtain ⟨hmem, hp, -⟩ := Table.get_eq_ok.mp hget
      refine ⟨knows_of_mem hsame hmem, ?_⟩
      have hc : code.code = voucherCode := by simpa using (Bool.and_eq_true_iff.mp hp).1
      show t.info.checkout.hasCode code
      rw [CheckoutRow.hasCode, hcode, hc, decide_eq_true_iff]
  · -- the voucher is read
    have hnot : t.stage ≠ .finished := by rw [hstage]; exact nofun
    have hread (hsound : Sound s t) : ∀ v ∈ t.info.voucher, s.db.Restricted v.pk →
        v.pk = code.voucher ∧ ∃ v' ∈ s.db.vouchers.rows, v'.pk = code.voucher ∧
          s.db.voucherActiveInChannel t.now t.info.channelSlug v' := by
      simpa only [Sound, hstage] using hsound
    simp only [advance, hstage]
    rcases hfind : s.db.vouchers.rows.find? fun v =>
        s.db.voucherActiveInChannel t.now t.info.channelSlug v && v.pk = code.voucher with _ | v
    · refine .quiet s.locked _ (Or.inl hnot) fun hsame _ hsound v hv hr => ?_
      obtain ⟨-, v', hv', hpk, hactive⟩ := hread hsound v hv ((restricted_congr hsame _).mpr hr)
      have hnone := List.find?_eq_none.mp hfind v' hv'
      simp [hpk, hactive] at hnone
    · refine .quiet s.locked _ (Or.inl hnot) fun hsame hfollows hsound => ?_
      simp only [Call.Follows, hstage] at hfollows
      have hpk : v.pk = code.voucher := by
        have hp := List.find?_some hfind
        simpa using (Bool.and_eq_true_iff.mp hp).2
      have hv : v ∈ s.db.vouchers := List.mem_of_find?_eq_some hfind
      rw [hsame.1] at hv
      exact ⟨hfollows.1, hfollows.2, hv, hpk, fun v₀ hv₀ hr =>
        (hread hsound v₀ hv₀ ((restricted_congr hsame _).mpr hr)).1⟩
  · -- the row of the code is locked, if the voucher has a limit
    have hnot : t.stage ≠ .finished := by rw [hstage]; exact nofun
    simp only [advance, hstage]
    split
    · rcases hget : s.db.codes.get t.info.checkout.hasCode with e | row
      · exact .quiet s.locked _ (Or.inr rfl) fun _ _ _ => trivial
      · simp only
        split
        · exact .quiet s.locked t.stage (Or.inl hnot) fun _ hfollows _ => hfollows
        · refine .quiet _ _ (Or.inl hnot) fun hsame hfollows _ => ?_
          simp only [Call.Follows, hstage] at hfollows
          obtain ⟨hmem, hrow, -⟩ := Table.get_eq_ok.mp hget
          obtain ⟨hknows, hcode, hv, hpk, hvoucher⟩ := hfollows
          have hsamerow : row.voucher = code.voucher := congrArg (·.2.2)
            (identity_eq_of_hasCode (knows_of_mem hsame hmem) hknows hrow hcode)
          refine ⟨knows_of_mem hsame hmem, hrow, hv, by rw [hsamerow, hpk], ?_⟩
          rw [hsamerow]
          exact hvoucher
    · refine .quiet s.locked _ (Or.inl hnot) fun _ hfollows _ => ?_
      simp only [Call.Follows, hstage] at hfollows
      exact hfollows
  · -- the use is recorded
    have hnot : t.stage ≠ .finished := by rw [hstage]; exact nofun
    simp only [advance, hstage]
    by_cases hrefuses : Refuses s.db v code t.info.getCustomerEmail
    · obtain ⟨e, db, hexec⟩ := exec_increaseVoucherUsage_of_refuses hrefuses
      simp only [hexec]
      exact .quiet _ _ (Or.inr rfl) fun _ _ _ => trivial
    · simp only [exec_increaseVoucherUsage_of_not_refuses hrefuses]
      exact .used v code _ hstage hrefuses
  · -- the order is built
    simp only [advance, hstage]
    by_cases hthrough : GoesThrough s.db t.info t.failure
    · obtain ⟨r, db, hexec, husage, -, hvouchers⟩ := exec_orderBlock_of_goesThrough hthrough
      rw [hexec]
      exact .ordered code db hstage hvouchers husage
    · rw [exec_orderBlock_of_not_goesThrough hthrough]
      exact .ordered code s.db hstage rfl rfl
  · -- nothing is left to do
    simp only [advance, hstage]
    exact .quiet s.locked t.stage (Or.inr hstage) fun _ hfollows _ => hfollows

theorem call_orderedUse {db : CheckoutDb} {t : Call ι} {u : Use ι}
    (hu : t.orderedUse db = some u) : u.call = t.id := by
  rw [Call.orderedUse] at hu
  split at hu
  · obtain ⟨v, -, rfl⟩ := Option.map_eq_some_iff.mp hu
    rfl
  · cases hu

theorem voucher_orderedUse {db : CheckoutDb} {t : Call ι} {u : Use ι} {v : Voucher}
    (hu : t.orderedUse db = some u) (hv : t.info.voucher = some v) : u.voucher = v.pk := by
  rw [Call.orderedUse] at hu
  split at hu
  · rw [orderVoucher, hv] at hu
    obtain rfl := Option.some.inj hu
    rfl
  · cases hu

/-- The calls have not done anything yet. -/
structure Begins (c : Config ι Shared (Call ι) (Event ι)) : Prop where
  id : ∀ i, (c.threads i).id = i
  stage : ∀ i, (c.threads i).stage = .started
  log : c.log = []

theorem Begins.consistent {c : Config ι Shared (Call ι) (Event ι)} (h : Begins c) :
    Consistent c.shared.db c := by
  refine ⟨?_, h.id, fun i => ?_, fun i _ => ?_, ?_, ?_⟩
  · rw [h.log]
    exact Recorded.refl c.shared.db
  · rw [Call.Follows, h.stage i]
    trivial
  all_goals rw [h.log]
  · exact List.not_mem_nil
  · exact List.nodup_nil
  · exact nofun

/-- Orders that all have their uses are within the limits if the uses are. -/
theorem Consistent.withinLimits {start : CheckoutDb} {c : Config ι Shared (Call ι) (Event ι)}
    (h : Consistent start c) {v : Voucher} (hv : v ∈ start.vouchers) :
    WithinLimits start v (ordersOf c.log) := by
  by_cases hr : v.usageLimit.isSome ∨ v.singleUse ∨ v.applyOncePerCustomer
  swap
  · refine ⟨fun n hn _ => ?_, fun hsingle => ?_, fun honce => ?_⟩
    · exact absurd (Or.inl (by rw [hn]; rfl)) hr
    · exact absurd (Or.inr (Or.inl hsingle)) hr
    · exact absurd (Or.inr (Or.inr honce)) hr
  have hnodup : (usesWith v.pk (ordersOf c.log)).Nodup := h.once.of_map.filter _
  have hsubset : usesWith v.pk (ordersOf c.log) ⊆ usesWith v.pk (usesOf c.log) := by
    intro u hu
    obtain ⟨hmem, hpk⟩ := mem_usesWith.mp hu
    exact mem_usesWith.mpr ⟨h.ordered u hmem ⟨v, hv, hpk.symm, hr⟩, hpk⟩
  have hsub := List.subperm_of_subset hnodup hsubset
  have hnodupOf {τ : Type _} (f : Use ι → τ) (hf : ((usesWith v.pk (usesOf c.log)).map f).Nodup) :
      ((usesWith v.pk (ordersOf c.log)).map f).Nodup := by
    obtain ⟨us, hperm, hsublist⟩ := hsub
    exact (hperm.map f).nodup_iff.mp ((hsublist.map f).nodup hf)
  have huses := h.recorded.within v hv
  refine ⟨fun n hn hne => ?_, fun hsingle => hnodupOf _ (huses.singleUse hsingle),
    fun honce => hnodupOf _ (huses.oncePerCustomer honce)⟩
  have hlength := hsub.length_le
  have hne' : usesWith v.pk (usesOf c.log) ≠ [] := by
    intro hnil
    rw [hnil, List.length_nil, Nat.le_zero] at hlength
    exact hne (List.eq_nil_of_length_eq_zero hlength)
  have hlimit := huses.usageLimit n hn hne'
  omega

variable [DecidableEq ι]

/-- **One sound step** keeps the invariant. -/
theorem consistent_step {start : CheckoutDb} (c : Config ι Shared (Call ι) (Event ι)) (i : ι)
    (h : Consistent start c) (hsound : Allowed Sound c i) :
    Consistent start (step advance c i) := by
  have hid := h.id i
  have hfollows := h.follows i
  have hsound' : Sound c.shared (c.threads i) := hsound
  rw [step]
  generalize hr : advance c.shared (c.threads i) = r
  have houtcome : Outcome c.shared (c.threads i) r := hr ▸ outcome_advance _ _
  cases houtcome with
  | quiet locked stage hstage hkeep =>
    dsimp only
    rw [Option.toList_none, List.append_nil]
    refine ⟨h.recorded, ?_, ?_, ?_, h.once, h.ordered⟩
    · exact (Function.forall_update_iff _ fun j (t : Call ι) => t.id = j).mpr ⟨hid, fun j _ => h.id j⟩
    · exact (Function.forall_update_iff _ fun j (t : Call ι) => t.Follows start (usesOf c.log)).mpr
        ⟨hkeep h.recorded.same hfollows hsound', fun j _ => h.follows j⟩
    · refine (Function.forall_update_iff _ fun j (t : Call ι) => t.stage ≠ .finished →
          j ∉ (ordersOf c.log).map (·.call)).mpr
        ⟨fun hnot => h.pending i ?_, fun j _ => h.pending j⟩
      exact hstage.resolve_right hnot
  | used v code locked hstage hrefuses =>
    dsimp only
    have huses : usesOf (c.log ++ (some (Event.used ⟨(c.threads i).id, v.pk, code.code,
        (c.threads i).info.getCustomerEmail⟩)).toList)
        = usesOf c.log ++ [⟨(c.threads i).id, v.pk, some code.code,
          (c.threads i).info.getCustomerEmail⟩] := usesOf_append _ _
    have horders : ordersOf (c.log ++ (some (Event.used ⟨(c.threads i).id, v.pk, code.code,
        (c.threads i).info.getCustomerEmail⟩)).toList) = ordersOf c.log :=
      (ordersOf_append _ _).trans (List.append_nil _)
    simp only [Call.Follows, hstage] at hfollows
    obtain ⟨hknows, hcode, hv, hpk, hown⟩ := hfollows
    have hroom : c.shared.db.HasRoom v code (c.threads i).info.getCustomerEmail := by
      simp only [Sound, hstage] at hsound'
      exact hsound' hrefuses
    refine ⟨?_, ?_, ?_, ?_, ?_, ?_⟩
    · rw [huses]
      exact h.recorded.record hv hknows hpk hrefuses hroom
    · exact (Function.forall_update_iff _ fun j (t : Call ι) => t.id = j).mpr ⟨hid, fun j _ => h.id j⟩
    · rw [huses]
      refine (Function.forall_update_iff _ fun j (t : Call ι) => t.Follows start _).mpr
        ⟨fun v₀ hv₀ hr => ?_, fun j _ => (h.follows j).mono _⟩
      -- the use just recorded is the one that the order will need
      refine List.mem_append_right _ (List.mem_singleton.mpr ?_)
      show (⟨(c.threads i).id, v₀.pk, _, _⟩ : Use ι) = _
      rw [hown v₀ hv₀ hr, hpk, ← decide_eq_true_iff.mp hcode]
      rfl
    · rw [horders]
      refine (Function.forall_update_iff _ fun j (t : Call ι) => t.stage ≠ .finished →
          j ∉ (ordersOf c.log).map (·.call)).mpr
        ⟨fun _ => h.pending i (by rw [hstage]; exact nofun), fun j _ => h.pending j⟩
    · rw [horders]
      exact h.once
    · rw [horders, huses]
      exact fun u hu hr => List.mem_append_left _ (h.ordered u hu hr)
  | ordered code db hstage hvouchers husage =>
    dsimp only
    have hpending := h.pending i (by rw [hstage]; exact nofun)
    have huses : usesOf (c.log ++ (((c.threads i).orderedUse c.shared.db).map
        Event.ordered).toList) = usesOf c.log := by
      rw [usesOf_append]
      cases (c.threads i).orderedUse c.shared.db <;> exact List.append_nil _
    have horders : ordersOf (c.log ++ (((c.threads i).orderedUse c.shared.db).map
        Event.ordered).toList)
        = ordersOf c.log ++ ((c.threads i).orderedUse c.shared.db).toList := by
      rw [ordersOf_append]
      cases (c.threads i).orderedUse c.shared.db <;> rfl
    refine ⟨?_, ?_, ?_, ?_, ?_, ?_⟩
    · rw [huses]
      exact h.recorded.of_eq hvouchers husage
    · exact (Function.forall_update_iff _ fun j (t : Call ι) => t.id = j).mpr
        ⟨hid, fun j _ => h.id j⟩
    · rw [huses]
      exact (Function.forall_update_iff _ fun j (t : Call ι) => t.Follows start _).mpr
        ⟨trivial, fun j _ => h.follows j⟩
    · rw [horders, List.map_append]
      refine (Function.forall_update_iff _ fun j (t : Call ι) => t.stage ≠ .finished →
        j ∉ _ ++ _).mpr ⟨fun hnot => absurd rfl hnot, fun j hj hnot hmem => ?_⟩
      rcases List.mem_append.mp hmem with hold | hnew
      · exact h.pending j hnot hold
      · obtain ⟨u, hu, rfl⟩ := List.mem_map.mp hnew
        exact hj ((call_orderedUse (Option.mem_toList.mp hu)).trans hid)
    · rw [horders]
      rcases hu : (c.threads i).orderedUse c.shared.db with _ | u
      · rw [Option.toList_none, List.append_nil]
        exact h.once
      · refine nodup_map_concat h.once fun u' hu' heq => hpending ?_
        rw [← hid, ← call_orderedUse hu, ← heq]
        exact List.mem_map_of_mem hu'
    · rw [horders, huses]
      intro u hu hr
      rcases List.mem_append.mp hu with hold | hnew
      · exact h.ordered u hold hr
      · -- the use was recorded by the same call
        have hu' := Option.mem_toList.mp hnew
        simp only [Sound, hstage] at hsound'
        simp only [Call.Follows, hstage] at hfollows
        obtain ⟨hsome, hcode, hemail⟩ :=
          hsound' u hu' ((restricted_congr h.recorded.same _).mpr hr)
        obtain ⟨v₀, hv₀⟩ := Option.isSome_iff_exists.mp hsome
        have hpk := voucher_orderedUse hu' hv₀
        have huse := hfollows v₀ hv₀ (hpk ▸ hr)
        rw [← hpk, ← hcode, ← hemail, ← call_orderedUse hu'] at huse
        exact huse

/-- **The limits of every voucher hold** in every configuration that an interleaving of sound steps
reaches. -/
theorem withinLimits_reached {c : Config ι Shared (Call ι) (Event ι)} (hc : Begins c)
    {schedule : List ι} (h : Runs.EachStep (step advance) (Allowed Sound) c schedule) :
    ∀ c', Runs.Reached (step advance) c schedule c' →
      ∀ v ∈ c.shared.db.vouchers, WithinLimits c.shared.db v (ordersOf c'.log) := by
  intro c' hreached v hv
  exact (h.inv_reached consistent_step hc.consistent hreached).withinLimits hv

/-- A voucher with one code, and two checkouts with it. -/
def twoCheckoutsDb (usageLimit : ℕ) : CheckoutDb :=
  { limitedVoucherDb with
    vouchers := Table.singleton { pk := 1, usageLimit := some usageLimit, startDate := 0 }
    checkouts := [{ token := "a", voucherCode := some "SAVE", email := some "a@sjtu.edu.cn" },
      { token := "b", voucherCode := some "SAVE", email := some "b@sjtu.edu.cn" }] }

/-- Both are completed at the same time. -/
def twoCalls (usageLimit : ℕ) : Config Bool Shared (Call Bool) (Event Bool) where
  shared := { db := twoCheckoutsDb usageLimit }
  threads := fun b =>
    { id := b
      info :=
        { checkout := if b then
            { token := "a", voucherCode := some "SAVE", email := some "a@sjtu.edu.cn" }
          else { token := "b", voucherCode := some "SAVE", email := some "b@sjtu.edu.cn" }
          channelSlug := "default"
          voucher := some { pk := 1, usageLimit := some usageLimit, startDate := 0 } }
      now := 5
      order := { someOrder with pk := if b then 1 else 2 } }
  log := []

/-- Both codes are read, both vouchers are found valid; then each call locks the row, records its
use and builds its order. -/
def bothReadFirst : List Bool :=
  [true, false, true, false, true, true, false, false, true, false]

theorem begins_twoCalls (usageLimit : ℕ) : Begins (twoCalls usageLimit) :=
  ⟨fun _ => rfl, fun _ => rfl, rfl⟩

/-- With a limit of two there is room for both. -/
theorem withinLimits_reached_twoCalls :
    Begins (twoCalls 2) ∧ ∀ c', Runs.Reached (step advance) (twoCalls 2) bothReadFirst c' →
      ∀ v ∈ (twoCheckoutsDb 2).vouchers, WithinLimits (twoCheckoutsDb 2) v (ordersOf c'.log) := by
  have hsound : Runs.EachStep (step advance) (Allowed Sound) (twoCalls 2) bothReadFirst := by
    simp only [bothReadFirst, Runs.eachStep_cons, Allowed]
    refine ⟨?_, ?_, ?_, ?_, ?_, ?_, ?_, ?_, ?_, ?_, Runs.eachStep_nil _⟩
    all_goals decide +kernel
  exact ⟨begins_twoCalls 2, withinLimits_reached (begins_twoCalls 2) hsound⟩

/-- With a limit of one both get their order, with a code that has been used twice. -/
theorem not_withinLimits_reached :
    ¬ ∀ (c c' : Config Bool Shared (Call Bool) (Event Bool)) (schedule : List Bool), Begins c →
      Runs.Reached (step advance) c schedule c' →
      ∀ v ∈ c.shared.db.vouchers, WithinLimits c.shared.db v (ordersOf c'.log) := by
  intro h
  have hlimits := h (twoCalls 1) _ bothReadFirst (begins_twoCalls 1) (Runs.reached_run _ _)
    { pk := 1, usageLimit := some 1, startDate := 0 } (List.mem_singleton_self _)
  exact absurd (hlimits.usageLimit 1 rfl (by decide +kernel)) (by decide +kernel)

end Checkout

end Aixinwu
