import Aixinwu.Donation.Credit
import Aixinwu.Lib.KeyedSums

/-!
# Completing many donations at once

`DonationBulkComplete.bulk_action` reads a fresh user for every donation that takes effect, changes
the balance of that instance, and writes all the instances in one `bulk_update` at the end. So each
instance holds the balance from before the batch plus *its own* donation, and of several instances
of one user the first is the one that is written.

Against completing the donations one after another, statuses agree always; a balance agrees
exactly when the donations of that user after the first add up to nothing
(**`bulkAction_eq_single_iff`**). The events are written for all of them.

## Main definitions

* `bulkAction`
* `TakesEffect`, `bulkCredits` — which donation credits whom, and how much

## Main results

* `balanceOf_singles` — one after another a user receives the sum
* `balanceOf_bulkAction` — in the batch a user receives the first
* `bulkAction_eq_single_iff`
-/

namespace Aixinwu

namespace Donation

open Account Runs Keyed

/-! ### `donation_bulk_complete.py` -/

/-- One pass of the loop of `bulk_action`, as far as it reaches the `try` block of one of the two
branches and finds the donor: the instance for `updated_users` and the event. -/
def bulkUpdateOf (users : Table User) (now : Time) (accepted : Bool) (d : Donation) :
    Option (User × BalanceEvent) :=
  if d.status ≠ some .completed ∧ accepted ∧ d.donator.getD "" ≠ "" then
    match users.get (·.code = d.donator.getD "") with
    | .error _ => none
    | .ok user =>
      let user := { user with balance := user.balance + d.priceAmount.getD 0 }
      some (user, donationGrantedBalanceEvent now user (d.priceAmount.getD 0))
  else if d.status = some .completed ∧ ¬ accepted ∧ d.donator.getD "" ≠ "" then
    match users.get (·.code = d.donator.getD "") with
    | .error _ => none
    | .ok user =>
      let user := { user with balance := user.balance - d.priceAmount.getD 0 }
      some (user, donationRejectedBalanceEvent now user d.priceAmount)
  else none

/-- `DonationBulkComplete.bulk_action`: the state afterwards and the count. -/
def bulkAction (db : Db) (now : Time) (queryset : db.donations.Queryset) (accepted : Bool) :
    Db × ℕ :=
  let updates := queryset.rows.filterMap (bulkUpdateOf db.users now accepted)
  let donations := queryset.rows.map (·.setStatus (completedStatus accepted))
  ({ db with
      donations := db.donations.bulkUpdate donations (fun m r => { r with status := m.status })
        fun _ _ => rfl
      users := db.users.bulkUpdate (updates.map (·.1)) (fun m r => { r with balance := m.balance })
        fun _ _ => rfl
      balanceEvents := db.balanceEvents ++ updates.map (·.2) },
    donations.length)

/-! ### Who is credited -/

/-- Completing the donation this way changes whether it is credited. -/
def TakesEffect (accepted : Bool) (d : Donation) : Prop :=
  (d.status ≠ some .completed ∧ accepted) ∨ (d.status = some .completed ∧ ¬ accepted)

instance (accepted : Bool) (d : Donation) : Decidable (TakesEffect accepted d) :=
  inferInstanceAs (Decidable (_ ∨ _))

theorem grant_of_not_takesEffect {accepted : Bool} {d : Donation} (h : ¬ TakesEffect accepted d) :
    grant d accepted = 0 := by
  rw [TakesEffect, not_or] at h
  rw [grant, if_neg h.1, if_neg h.2]

/-- The credits of a list of donations: for each that takes effect and whose donor is found, the
key of the donor and the grant. -/
def bulkCredits (users : Table User) (accepted : Bool) (ds : List Donation) :
    List (ℕ × Amount) :=
  ds.filterMap fun d =>
    if TakesEffect accepted d then (donorOf users d).map fun u => (u.pk, grant d accepted)
    else none

theorem bulkCredits_cons (users : Table User) (accepted : Bool) (d : Donation)
    (ds : List Donation) (k : ℕ) :
    sumAt k (bulkCredits users accepted (d :: ds))
      = creditedTo (donorOf users d) (grant d accepted) k
        + sumAt k (bulkCredits users accepted ds) := by
  rw [bulkCredits, List.filterMap_cons]
  by_cases h : TakesEffect accepted d
  · cases donorOf users d with
    | none => simp [h, creditedTo, bulkCredits]
    | some u => simp [h, creditedTo, bulkCredits, sumAt_cons]
  · rw [grant_of_not_takesEffect h]
    simp [h, bulkCredits]

/-- A credit to somebody moves nobody's code, so it changes no later donor. -/
theorem donorOf_credit (users : Table User) (k : ℕ) (δ : Amount) (d : Donation) :
    (donorOf (credit users k δ) d).map (·.pk) = (donorOf users d).map (·.pk) := by
  rw [donorOf, donorOf, get_credit fun _ _ => rfl]
  split
  · cases users.get (·.code = d.donator.getD "") with
    | error e => rfl
    | ok u => simp only [Except.map, Except.toOption, Option.map_some]; split <;> rfl
  · rfl

theorem bulkCredits_creditDonor (users : Table User) (donor : Option User) (δ : Amount)
    (accepted : Bool) (ds : List Donation) :
    bulkCredits (creditDonor users donor δ) accepted ds = bulkCredits users accepted ds := by
  cases donor with
  | none => rfl
  | some u =>
    rw [bulkCredits, bulkCredits, creditDonor]
    congr 1
    funext d
    have h := congrArg (Option.map fun pk => (pk, grant d accepted))
      (donorOf_credit users u.pk δ d)
    rw [Option.map_map, Option.map_map] at h
    exact if_congr Iff.rfl h rfl

/-! ### One after another -/

/-- Completing the donations with these ids, one request each. -/
def singles (requestor : Option Requestor) (now : ℕ → Time) (accepted : Bool)
    (ds : List Donation) : List DonationRequest :=
  ds.map fun d => .complete requestor (now d.pk) d.pk accepted

/-- The status of a donation. -/
def statusOf (donations : Table Donation) (id : ℕ) : Option (Option DonationStatus) :=
  (donations.find? id).map (·.status)

theorem balanceOf_creditDonor (users : Table User) (donor : Option User) (δ : Amount) (k : ℕ) :
    balanceOf (creditDonor users donor δ) k
      = (balanceOf users k).map (· + creditedTo donor δ k) := by
  cases donor with
  | none => simp [creditDonor, creditedTo]
  | some u =>
    rw [creditDonor, balanceOf_credit]
    refine congrArg (Option.map · _) ?_
    funext b
    rw [creditedTo]
    exact congrArg (b + ·) (if_congr eq_comm rfl rfl)

section Single

variable {requestor : Option Requestor} (hperm : validateCompletePermission requestor = .ok ())
  (now : ℕ → Time) (accepted : Bool)

include hperm

/-- **One after another** a user receives the sum of its credits, and every donation of the list
the status. -/
theorem run_singles (ds : List Donation) :
    ∀ db : Db, (∀ d ∈ ds, d ∈ db.donations) → (ds.map (·.pk)).Nodup →
      (∀ k, balanceOf (run serve db (singles requestor now accepted ds)).users k
        = (balanceOf db.users k).map (· + sumAt k (bulkCredits db.users accepted ds))) ∧
      ∀ id, statusOf (run serve db (singles requestor now accepted ds)).donations id
        = if id ∈ ds.map (·.pk) then some (some (completedStatus accepted))
          else statusOf db.donations id := by
  induction ds with
  | nil => intro db _ _; simp [singles, bulkCredits]
  | cons d ds ih =>
    intro db hmem hnodup
    rw [List.map_cons, List.nodup_cons] at hnodup
    have hd : d ∈ db.donations := hmem d List.mem_cons_self
    obtain ⟨users, events, heq, husers, -⟩ :=
      donationComplete_eq (Table.mem_iff_find?.mp hd) hperm (now d.pk) accepted
    have hserve : serve db (.complete requestor (now d.pk) d.pk accepted) = _ := heq
    -- the donations that are left are still as they were
    have hmem' : ∀ e ∈ ds,
        e ∈ db.donations.save (d.setStatus (completedStatus accepted)) := by
      intro e he
      refine Table.mem_save_of_ne hd rfl (hmem e (List.mem_cons_of_mem _ he)) fun hpk => ?_
      exact hnodup.1 (List.mem_map.mpr ⟨e, he, hpk⟩)
    obtain ⟨hbal, hstatus⟩ := ih
      { db with
        donations := db.donations.save (d.setStatus (completedStatus accepted))
        users, balanceEvents := events } hmem' hnodup.2
    rw [singles, List.map_cons, run_cons, hserve]
    constructor
    · intro k
      refine (hbal k).trans ?_
      rw [husers, bulkCredits_creditDonor, balanceOf_creditDonor, Option.map_map]
      refine congrArg (Option.map · _) ?_
      funext b
      rw [Function.comp_apply, bulkCredits_cons, add_assoc]
    · intro id
      refine (hstatus id).trans ?_
      rw [statusOf, Table.find?_save]
      by_cases hid : id = d.pk
      · have hfind : db.donations.find? d.pk = some d := Table.mem_iff_find?.mp hd
        subst hid
        simp [hnodup.1, hfind]
      · simp [hid, statusOf]

end Single

/-! ### In one batch -/

/-- The loop finds the donors the single completion finds, and its instances carry their own
donation only. -/
theorem bulkUpdateOf_eq (users : Table User) (now : Time) (accepted : Bool) (d : Donation) :
    ∃ event : User → BalanceEvent,
      (∀ u, (event u).user = u.pk ∧ (event u).delta = grant d accepted) ∧
      bulkUpdateOf users now accepted d
        = if TakesEffect accepted d then
            (donorOf users d).map fun u =>
              ({ u with balance := u.balance + grant d accepted }, event u)
          else none := by
  by_cases hs : d.status = some .completed <;> cases accepted
  · -- a completed donation is rejected
    refine ⟨fun u => donationRejectedBalanceEvent now
      { u with balance := u.balance - d.priceAmount.getD 0 } d.priceAmount,
      fun u => ⟨rfl, by simp [grant, hs, donationRejectedBalanceEvent]⟩, ?_⟩
    rw [bulkUpdateOf, donorOf, grant]
    by_cases hc : d.donator.getD "" = ""
    · simp [hs, hc]
    · cases users.get (·.code = d.donator.getD "") <;>
        simp [hs, hc, TakesEffect, Except.toOption, sub_eq_add_neg]
  · exact ⟨fun u => donationGrantedBalanceEvent now u 0,
      fun u => ⟨rfl, by simp [grant, hs, donationGrantedBalanceEvent]⟩, by
        simp [bulkUpdateOf, hs, TakesEffect]⟩
  · exact ⟨fun u => donationGrantedBalanceEvent now u 0,
      fun u => ⟨rfl, by simp [grant, hs, donationGrantedBalanceEvent]⟩, by
        simp [bulkUpdateOf, hs, TakesEffect]⟩
  · -- a donation becomes completed
    refine ⟨fun u => donationGrantedBalanceEvent now
      { u with balance := u.balance + d.priceAmount.getD 0 } (d.priceAmount.getD 0),
      fun u => ⟨rfl, by simp [grant, hs, donationGrantedBalanceEvent]⟩, ?_⟩
    rw [bulkUpdateOf, donorOf, grant]
    by_cases hc : d.donator.getD "" = ""
    · simp [hs, hc]
    · cases users.get (·.code = d.donator.getD "") <;>
        simp [hs, hc, TakesEffect, Except.toOption]

/-- The first instance of a user in the batch carries the first credit of that user. -/
theorem find?_bulkUpdates (users : Table User) (now : Time) (accepted : Bool) {row : User}
    (hrow : row ∈ users) (ds : List Donation) :
    (((ds.filterMap (bulkUpdateOf users now accepted)).map (·.1)).find? (·.pk = row.pk)).map
        (·.balance)
      = (valuesAt row.pk (bulkCredits users accepted ds)).head?.map (row.balance + ·) := by
  induction ds with
  | nil => rfl
  | cons d ds ih =>
    obtain ⟨event, -, heq⟩ := bulkUpdateOf_eq users now accepted d
    rw [bulkCredits] at ih ⊢
    rw [List.filterMap_cons, List.filterMap_cons, heq]
    by_cases h : TakesEffect accepted d
    · rcases hdonor : donorOf users d with _ | u
      · simpa [h, hdonor] using ih
      · by_cases hpk : u.pk = row.pk
        · obtain rfl := Table.eq_of_pk_eq (donorOf_mem hdonor).1 hrow hpk
          simp [h, valuesAt_cons]
        · simpa [h, valuesAt_cons, hpk] using ih
    · simpa [h] using ih

/-- The events of the batch add up to the credits, all of them. -/
theorem deltaSum_bulkUpdates (users : Table User) (now : Time) (accepted : Bool)
    (ds : List Donation) (k : ℕ) :
    deltaSum k ((ds.filterMap (bulkUpdateOf users now accepted)).map (·.2))
      = sumAt k (bulkCredits users accepted ds) := by
  induction ds with
  | nil => rfl
  | cons d ds ih =>
    obtain ⟨event, hevent, heq⟩ := bulkUpdateOf_eq users now accepted d
    rw [bulkCredits_cons, List.filterMap_cons, heq, ← ih]
    by_cases h : TakesEffect accepted d
    · cases donorOf users d with
      | none => simp [h, creditedTo]
      | some u => simp [h, creditedTo, deltaSum_cons, hevent]
    · rw [grant_of_not_takesEffect h]
      simp [h]

section Bulk

variable {db : Db} (now : Time) (queryset : db.donations.Queryset) (accepted : Bool)

/-- **In the batch** a user receives the first of its credits. -/
theorem balanceOf_bulkAction (k : ℕ) :
    balanceOf (bulkAction db now queryset accepted).1.users k
      = (balanceOf db.users k).map
          (· + firstAt k (bulkCredits db.users accepted queryset.rows)) := by
  rw [bulkAction, balanceOf, Table.find?_bulkUpdate, balanceOf]
  rcases hrow : db.users.find? k with _ | row
  · rfl
  · obtain ⟨hmem, rfl⟩ := Table.find?_eq_some.mp hrow
    have h := find?_bulkUpdates db.users now accepted hmem queryset.rows
    simp only [pk_user, Option.map_some, Option.some.injEq]
    rw [firstAt]
    rcases hfind : ((queryset.rows.filterMap (bulkUpdateOf db.users now accepted)).map
        (·.1)).find? (·.pk = row.pk) with _ | m
    · rw [hfind, Option.map_none, eq_comm, Option.map_eq_none_iff] at h
      rw [hfind, h, Option.getD_none, add_zero]
    · rw [hfind, Option.map_some, eq_comm, Option.map_eq_some_iff] at h
      obtain ⟨δ, hδ, hb⟩ := h
      rw [hfind, hδ, Option.getD_some, hb]

theorem statusOf_bulkAction (id : ℕ) :
    statusOf (bulkAction db now queryset accepted).1.donations id
      = if id ∈ queryset.rows.map (·.pk) then some (some (completedStatus accepted))
        else statusOf db.donations id := by
  rw [bulkAction, statusOf, Table.find?_bulkUpdate, statusOf]
  have hfind : (queryset.rows.map (·.setStatus (completedStatus accepted))).find? (·.pk = id)
      = (queryset.rows.find? (·.pk = id)).map (·.setStatus (completedStatus accepted)) :=
    List.find?_map ..
  simp only [pk_donation, hfind]
  by_cases hid : id ∈ queryset.rows.map (·.pk)
  · obtain ⟨d, hd, rfl⟩ := List.mem_map.mp hid
    have hrow : db.donations.find? d.pk = some d := Table.mem_iff_find?.mp (queryset.mem d hd)
    obtain ⟨m, hm⟩ : ∃ m, queryset.rows.find? (·.pk = d.pk) = some m :=
      Option.isSome_iff_exists.mp (List.find?_isSome.mpr ⟨d, hd, by simp⟩)
    rw [if_pos hid, hrow, hm]
    rfl
  · have hnone : queryset.rows.find? (·.pk = id) = none :=
      List.find?_eq_none.mpr fun d hd => by
        simpa using fun h : d.pk = id => hid (List.mem_map.mpr ⟨d, hd, h⟩)
    rw [if_neg hid, hnone]
    cases db.donations.find? id <;> rfl

/-- **The batch against the single requests.** The statuses always agree. The balances agree
exactly when, for every user, the credits after the first add up to nothing: at most one donation
of a donor takes effect, or the later ones cancel or have no price. -/
theorem bulkAction_eq_single_iff {requestor : Option Requestor}
    (hperm : validateCompletePermission requestor = .ok ()) (nows : ℕ → Time) :
    ((∀ k, balanceOf (bulkAction db now queryset accepted).1.users k
        = balanceOf (run serve db (singles requestor nows accepted queryset.rows)).users k) ∧
      ∀ id, statusOf (bulkAction db now queryset accepted).1.donations id
        = statusOf (run serve db (singles requestor nows accepted queryset.rows)).donations id) ↔
    ∀ u ∈ db.users.rows,
      (valuesAt u.pk (bulkCredits db.users accepted queryset.rows)).tail.sum = 0 := by
  obtain ⟨hbal, hstatus⟩ :=
    run_singles hperm nows accepted queryset.rows db queryset.mem queryset.nodup
  have hstatuses : ∀ id, statusOf (bulkAction db now queryset accepted).1.donations id
      = statusOf (run serve db (singles requestor nows accepted queryset.rows)).donations id :=
    fun id => (statusOf_bulkAction now queryset accepted id).trans (hstatus id).symm
  simp only [hstatuses, implies_true, and_true, balanceOf_bulkAction, hbal]
  constructor
  · intro h u hu
    have hk := h u.pk
    have hfind : db.users.find? u.pk = some u := Table.mem_iff_find?.mp hu
    rw [balanceOf, hfind, Option.map_some, Option.map_some, Option.map_some,
      Option.some.injEq, add_right_inj] at hk
    exact firstAt_eq_sumAt_iff.mp hk
  · intro h k
    rcases hfind : db.users.find? k with _ | u
    · rw [balanceOf, hfind]
      rfl
    · obtain ⟨hu, rfl⟩ := Table.find?_eq_some.mp hfind
      rw [pk_user, firstAt_eq_sumAt_iff.mpr (h u hu)]

end Bulk

/-- One donation: the batch is the single request. -/
theorem bulkAction_eq_single_oneDonation :
    let donor : User :=
      { pk := 1, email := "a@sjtu.edu.cn", balance := 500, code := "517", lastLogin := 0 }
    let lamp : Donation :=
      { pk := 7, donator := some "517", barcode := some "690", title := some "lamp",
        description := none, currency := some "AXB", priceAmount := some 2000,
        status := some .unreviewed, quantity := 1 }
    let db : Db := { users := Table.singleton donor, donations := Table.singleton lamp }
    let queryset : db.donations.Queryset := ⟨[lamp], fun _ h => h, by decide⟩
    let single := run serve db
      (singles (some ⟨[.manageDonations]⟩) (fun _ => 5) true queryset.rows)
    (∀ k, balanceOf (bulkAction db 5 queryset true).1.users k = balanceOf single.users k) ∧
      ∀ id, statusOf (bulkAction db 5 queryset true).1.donations id
        = statusOf single.donations id :=
  (bulkAction_eq_single_iff 5 _ true rfl fun _ => 5).mpr (by decide)

/-- Two donations of one donor: the batch grants the first, the single requests grant both. -/
theorem bulkAction_twoDonations :
    let donor : User :=
      { pk := 1, email := "a@sjtu.edu.cn", balance := 500, code := "517", lastLogin := 0 }
    let lamp : Donation :=
      { pk := 7, donator := some "517", barcode := some "690", title := some "lamp",
        description := none, currency := some "AXB", priceAmount := some 2000,
        status := some .unreviewed, quantity := 1 }
    let desk : Donation :=
      { pk := 8, donator := some "517", barcode := some "691", title := some "desk",
        description := none, currency := some "AXB", priceAmount := some 3000,
        status := some .unreviewed, quantity := 1 }
    let db : Db := { users := Table.singleton donor, donations := ⟨[lamp, desk], by decide⟩ }
    let queryset : db.donations.Queryset := ⟨[lamp, desk], fun _ h => h, by decide⟩
    let single := run serve db
      (singles (some ⟨[.manageDonations]⟩) (fun _ => 5) true queryset.rows)
    balanceOf (bulkAction db 5 queryset true).1.users 1 = some 2500 ∧
      balanceOf single.users 1 = some 5500 := by
  decide

end Donation

end Aixinwu
